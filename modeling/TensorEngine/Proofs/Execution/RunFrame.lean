import TensorEngine.Proofs.Execution.Engine
import TensorEngine.Proofs.Execution.Lending

/-!
Contract: what a run leaves alone, whatever its operators do to the outputs they are lent.

Owns:
- `Step.Lent`, the buffers that a step works on, and the run of a step that has them;
- `BlobTable.Framed`, tables that differ in the fronts of computed blobs only;
- `Step.Ran`, a step that has been run, read off the blobs at the start and at the end of the run;
- the frame of a series of runs, and where it stops.

Does not own: the state of the executable.
-/

namespace TensorEngine

/-! ## Lent buffers -/

/-- A fault that is reported to the caller as an error. -/
def Fault.Reported (fault : Fault) : Prop :=
  ∃ cause, fault = .refused cause

instance (fault : Fault) : Decidable fault.Reported :=
  match fault with
  | .refused cause => isTrue ⟨cause, rfl⟩
  | .breached _ => isFalse fun ⟨_, same⟩ => nomatch same
  | .unregistered _ => isFalse fun ⟨_, same⟩ => nomatch same

instance {α : Type} (outcome : Outcome α) : Decidable (outcome.FailsOnly Fault.Reported) :=
  match outcome with
  | .ok result => isTrue (.of_exists ⟨result, rfl⟩)
  | .error fault =>
      decidable_of_iff fault.Reported
        ⟨fun reported _ same => Except.error.inj same ▸ reported,
          fun reported => reported fault rfl⟩

/-- The blob after its front has been written. -/
def Blob.overlaid (blob : Blob) (written : Bytes) : Blob :=
  { blob with buffer := { blob.buffer with bytes := overlay blob.buffer.bytes written } }

theorem Blob.overlaid_room (blob : Blob) (written : Bytes) :
    (blob.overlaid written).room = blob.room := by
  unfold room overlaid Buffer.size
  rw [overlay_size]

section Step

variable {Op : Type}

/-- The buffers of a step: those of its inputs, and the room in the blob of its output. -/
structure Step.Lent (values : List Value) (blobs : BlobTable) (step : Step Op) (output : Nat)
    (value : Value) (blob : Blob) (inputs : List Buffer) (room : Buffer) : Prop where
  computes : step.node.Computes values output value
  bound : blobs.get? output = some blob
  writable : blob.writable = true
  read : step.node.inputs.mapM (inputBuffer values blobs) = .ok inputs
  taken : blob.buffer.front value.byteCount = .ok room

/-- A step whose operands can be lent has its buffers. -/
theorem Step.exists_lent {values : List Value} {blobs : BlobTable} {step : Step Op}
    {output : Nat} {value : Value} (computes : step.node.Computes values output value)
    (filled : ContentsFilled values)
    (lendable : ∀ id ∈ step.node.inputs ++ step.node.outputs, Lendable False values blobs id) :
    ∃ blob inputs room, step.Lent values blobs output value blob inputs room := by
  obtain ⟨inputs, read, _⟩ := exists_inputs filled fun id listed =>
    lendable id (List.mem_append_left _ listed)
  obtain ⟨other, found, bound, _⟩ := lendable output (by simp [computes.outputs_eq])
  cases computes.found.symm.trans found
  have dynamic : ¬ value.isStatic = true := by
    unfold Value.isStatic
    rw [computes.notStatic]
    decide
  obtain ⟨blob, bound, fits⟩ := bound.resolve_left dynamic
  obtain ⟨room, taken, _⟩ := exists_front fits.room (False.elim : False → _)
  exact ⟨blob, inputs, room, computes, bound, fits.writable computes.produced, read, taken⟩

variable [Operator Op] {values : List Value} {blobs : BlobTable} {step : Step Op} {output : Nat}
  {value : Value} {blob : Blob} {inputs : List Buffer} {room : Buffer}

/-- A step that has its buffers ends as its operator does. Unless the operator breaks an internal
contract, what it has written is then in the blob of the output, also after a failure. -/
theorem Step.Lent.runStep (lent : step.Lent values blobs output value blob inputs room)
    (schedule : Schedule) :
    let done := Operator.run step.operator schedule inputs room
    (TensorEngine.runStep values schedule step blobs).2 = done.outcome ∧
      (done.outcome.FailsOnly Fault.Reported → ∀ id : Nat,
        (TensorEngine.runStep values schedule step blobs).1.get? id =
          if id = output then some (blob.overlaid done.written) else blobs.get? id) := by
  have apart : ∀ id : Nat, id ≠ output → (blobs.erase output).get? id = blobs.get? id := by
    intro id different
    rw [BlobTable.get?_erase, if_neg different]
  have readOthers : step.node.inputs.mapM (inputBuffer values (blobs.erase output)) = .ok inputs :=
    (inputs_congr fun id listed => apart id fun same =>
      lent.computes.unread (same ▸ listed)).trans lent.read
  have operated : operate values (blobs.erase output) schedule step output blob.buffer =
      (overlay blob.buffer.bytes (Operator.run step.operator schedule inputs room).written,
        (Operator.run step.operator schedule inputs room).outcome) := by
    unfold operate
    rw [lend_eq_ok_iff.mpr ⟨value, lent.computes.found, readOthers, lent.taken⟩]
  intro done
  have inserted : ∀ id : Nat,
      ((blobs.erase output).insert output (blob.overlaid done.written)).get? id =
        if id = output then some (blob.overlaid done.written) else blobs.get? id := by
    intro id
    rw [BlobTable.get?_insert]
    split
    · rfl
    · rename_i different
      exact apart id different
  unfold TensorEngine.runStep
  rw [lent.computes.outputs_eq, List.head?_cons]
  simp only [lent.bound, lent.writable, operated, Bool.not_true, Bool.false_eq_true, if_false]
  change ∀ id : Nat, ((blobs.erase output).insert output
    ⟨⟨overlay blob.buffer.bytes done.written, blob.buffer.address⟩, blob.writable⟩).get? id = _
    at inserted
  rw [lent.writable] at inserted
  show _ ∧ (done.outcome.FailsOnly Fault.Reported → _)
  generalize done.outcome = outcome
  cases outcome with
  | ok finished => exact ⟨rfl, fun _ => inserted⟩
  | error fault =>
      cases fault with
      | refused cause => exact ⟨rfl, fun _ => inserted⟩
      | unregistered key => exact ⟨rfl, fun _ => inserted⟩
      | breached breach =>
          refine ⟨rfl, fun reported => ?_⟩
          obtain ⟨cause, impossible⟩ := reported _ rfl
          cases impossible

end Step

/-! ## Frames -/

namespace BlobTable

def byte? (table : BlobTable) (id : ValueId) (index : Nat) : Option UInt8 :=
  (table.get? id).bind fun blob => blob.buffer.bytes[index]?

/-- Tables with blobs of the same rooms that differ in the fronts of written blobs only, as far as
the values of a table reach. A blob that can only be read is the same in both. -/
structure Framed (values : List Value) (written : Nat → Prop) (before after : BlobTable) :
    Prop where
  rooms : after.SameRooms before
  unwritten : ∀ id : Nat, ¬ written id → after.get? id = before.get? id
  readOnly : ∀ (id : Nat) (blob : Blob), before.get? id = some blob → blob.writable = false →
    after.get? id = some blob
  tails : ∀ (id : Nat) (value : Value), values[id]? = some value →
    ∀ index : Nat, value.byteCount ≤ index → after.byte? id index = before.byte? id index

namespace Framed

variable {values : List Value} {written more : Nat → Prop} {first second third : BlobTable}

theorem refl (table : BlobTable) : Framed values written table table :=
  ⟨.refl table, fun _ _ => rfl, fun _ _ bound _ => bound, fun _ _ _ _ _ => rfl⟩

theorem trans (early : Framed values written first second)
    (late : Framed values written second third) : Framed values written first third where
  rooms := late.rooms.trans early.rooms
  unwritten id apart := (late.unwritten id apart).trans (early.unwritten id apart)
  readOnly id blob bound fixed := late.readOnly id blob (early.readOnly id blob bound fixed) fixed
  tails id value found index past :=
    (late.tails id value found index past).trans (early.tails id value found index past)

theorem mono (framed : Framed values written first second)
    (covers : ∀ id, written id → more id) : Framed values more first second where
  rooms := framed.rooms
  unwritten id apart := framed.unwritten id fun among => apart (covers id among)
  readOnly := framed.readOnly
  tails := framed.tails

end Framed

end BlobTable

section Frame

variable {Op : Type} [Operator Op] {values : List Value} {blobs : BlobTable} {step : Step Op}
  {output : Nat} {value : Value} {blob : Blob} {inputs : List Buffer} {room : Buffer}

/-- A step changes the front of its output only. -/
theorem Step.Lent.framed (lent : step.Lent values blobs output value blob inputs room)
    (schedule : Schedule)
    (reported : (Operator.run step.operator schedule inputs room).outcome.FailsOnly
      Fault.Reported) :
    BlobTable.Framed values (· ∈ step.node.outputs) blobs
      (TensorEngine.runStep values schedule step blobs).1 := by
  have after := (lent.runStep schedule).2 reported
  have size := Operator.run_size step.operator schedule inputs room
  constructor
  · intro id
    rw [after id]
    split
    · rename_i here
      rw [here, lent.bound, Option.map_some, Option.map_some, Blob.overlaid_room]
    · rfl
  · intro id apart
    rw [after id, if_neg]
    rintro rfl
    exact apart (by simp [lent.computes.outputs_eq])
  · intro id other bound fixed
    rw [after id, if_neg, bound]
    rintro rfl
    rw [lent.bound, Option.some.injEq] at bound
    rw [← bound, lent.writable] at fixed
    cases fixed
  · intro id other found index past
    unfold BlobTable.byte?
    rw [after id]
    split
    · rename_i here
      subst here
      cases lent.computes.found.symm.trans found
      obtain ⟨enough, rfl⟩ := Buffer.front_eq_ok_iff.mp lent.taken
      rw [lent.bound, Option.bind_some, Option.bind_some]
      have short : ¬ index < (blob.buffer.bytes.extract 0 value.byteCount).size := by
        rw [Array.size_extract]
        omega
      rw [← size] at short
      show (overlay _ _)[index]? = _
      rw [overlay_getElem?, if_neg fun inside => short inside.1]
    · rfl

/-- A step that has been run on the inputs at the end of a run and on the front of its output at the
start of it, with this outcome. What it has written is in the blob of the output at the end. -/
def Step.Ran (values : List Value) (schedule : Schedule) (start final : BlobTable)
    (step : Step Op) (outcome : Outcome Unit) : Prop :=
  ∃ (output : Nat) (value : Value) (blob : Blob) (inputs : List Buffer) (room : Buffer),
    step.node.outputs = [output] ∧ values[output]? = some value ∧ start.get? output = some blob ∧
      step.node.inputs.mapM (inputBuffer values final) = .ok inputs ∧
      blob.buffer.front value.byteCount = .ok room ∧
      (Operator.run step.operator schedule inputs room).outcome = outcome ∧
      final.get? output =
        some (blob.overlaid (Operator.run step.operator schedule inputs room).written)

variable {schedule : Schedule} {start final : BlobTable} {outcome : Outcome Unit}

/-- A step has been run all the same in a longer run that touches its operands at no other time. -/
theorem Step.Ran.congr {earlier later : BlobTable}
    (ran : step.Ran values schedule start final outcome)
    (sameStart : ∀ id ∈ step.node.outputs, earlier.get? id = start.get? id)
    (sameFinal : ∀ id ∈ step.node.inputs ++ step.node.outputs, later.get? id = final.get? id) :
    step.Ran values schedule earlier later outcome := by
  obtain ⟨output, value, blob, inputs, room, outputs, found, bound, read, taken, ended, kept⟩ := ran
  refine ⟨output, value, blob, inputs, room, outputs, found, ?_, ?_, taken, ended, ?_⟩
  · rw [sameStart output (by simp [outputs]), bound]
  · rw [inputs_congr fun id listed => sameFinal id (List.mem_append_left _ listed), read]
  · rw [sameFinal output (by simp [outputs]), kept]

theorem Step.Lent.ran (lent : step.Lent values blobs output value blob inputs room)
    (schedule : Schedule)
    (reported : (Operator.run step.operator schedule inputs room).outcome.FailsOnly
      Fault.Reported) :
    step.Ran values schedule blobs (TensorEngine.runStep values schedule step blobs).1
      (TensorEngine.runStep values schedule step blobs).2 := by
  obtain ⟨ended, after⟩ := lent.runStep schedule
  refine ⟨output, value, blob, inputs, room, lent.computes.outputs_eq, lent.computes.found,
    lent.bound, ?_, lent.taken, ended.symm, ?_⟩
  · refine (inputs_congr fun id listed => ?_).trans lent.read
    rw [after reported id, if_neg]
    rintro rfl
    exact lent.computes.unread listed
  · rw [after reported output, if_pos rfl]

/-- A series of runs that has stopped at a step: the steps before it have been run, the step has
been run and has failed, and the outputs of the steps after it are as they were. -/
structure StoppedAt (values : List Value) (schedule : Schedule) (start final : BlobTable)
    (before : List (Step Op)) (step : Step Op) (after : List (Step Op)) (cause : EngineError) :
    Prop where
  ran : ∀ earlier ∈ before, earlier.Ran values schedule start final (.ok ())
  failed : step.Ran values schedule start final (.error (.refused cause))
  untouched : ∀ later ∈ after, ∀ id ∈ later.node.outputs, final.get? id = start.get? id

/-- A series of runs that stops after a step that has been run. -/
theorem StoppedAt.cons {middle : BlobTable} {head : Step Op} {before after : List (Step Op)}
    {cause : EngineError}
    (stopped : StoppedAt values schedule middle final before step after cause)
    (ran : head.Ran values schedule start final (.ok ()))
    (unmoved : ∀ later ∈ before ++ step :: after, ∀ id ∈ later.node.outputs,
      start.get? id = middle.get? id) :
    StoppedAt values schedule start final (head :: before) step after cause where
  ran := List.forall_mem_cons.mpr ⟨ran, fun earlier listed =>
    (stopped.ran earlier listed).congr (unmoved earlier (List.mem_append_left _ listed))
      fun _ _ => rfl⟩
  failed := stopped.failed.congr
    (unmoved step (List.mem_append_right _ List.mem_cons_self)) fun _ _ => rfl
  untouched later listed id written :=
    (stopped.untouched later listed id written).trans
      (unmoved later (List.mem_append_right _ (List.mem_cons_of_mem _ listed)) id written).symm

section Series

variable {settings : Settings} {trace : List TraceEvent} {middle : BlobTable}

/-- A series of runs stops at a step that fails, whatever the steps after it are. -/
theorem runSteps_of_error {fault : Fault}
    (failed : runStep values schedule step blobs = (middle, .error fault))
    (rest : List (Step Op)) :
    runSteps settings values schedule (step :: rest) blobs trace =
      ⟨middle, trace, failureNotices (.operatorRunFailed step.node) fault, .error fault⟩ := by
  unfold runSteps
  rw [failed]

/-- After a step that succeeds, a series of runs goes on with the steps after it. -/
theorem runSteps_of_ok (succeeded : runStep values schedule step blobs = (middle, .ok ())) :
    ∃ notices, ∀ rest, runSteps settings values schedule (step :: rest) blobs trace =
      let later := runSteps settings values schedule rest middle
        (settings.record trace (.ofNode .execute step.node true))
      { later with notices := notices ++ later.notices } := by
  refine ⟨if settings.timer || settings.trace then [.operatorRan step.node] else [],
    fun rest => ?_⟩
  rw [runSteps, succeeded]

end Series

/-- Steps in an order in which they can run, with blobs for all of their operands. -/
structure Runnable (values : List Value) (blobs : BlobTable) (steps : List (Step Op)) : Prop where
  ordered : Graph.Ordered (steps.map (·.node))
  computes : ∀ step ∈ steps, ∃ output value, step.node.Computes values output value
  filled : ContentsFilled values
  lendable : ∀ step ∈ steps, ∀ id ∈ step.node.inputs ++ step.node.outputs,
    Lendable False values blobs id

namespace Runnable

variable {steps : List (Step Op)} (runnable : Runnable values blobs (step :: steps))

include runnable

omit [Operator Op] in
theorem exists_lent :
    ∃ output value blob inputs room, step.Lent values blobs output value blob inputs room := by
  obtain ⟨output, value, computes⟩ := runnable.computes step List.mem_cons_self
  obtain ⟨blob, inputs, room, lent⟩ := Step.exists_lent computes runnable.filled
    (runnable.lendable step List.mem_cons_self)
  exact ⟨output, value, blob, inputs, room, lent⟩

omit [Operator Op] in
/-- The steps after the first one can run on blobs with the same rooms. -/
theorem tail {middle : BlobTable} (rooms : middle.SameRooms blobs) :
    Runnable values middle steps where
  ordered :=
    ⟨fun node listed => runnable.ordered.single node (List.mem_cons_of_mem _ listed),
      (List.pairwise_cons.mp runnable.ordered.fresh).2⟩
  computes later listed := runnable.computes later (List.mem_cons_of_mem _ listed)
  filled := runnable.filled
  lendable later listed id used :=
    (runnable.lendable later (List.mem_cons_of_mem _ listed) id used).congr (rooms id)

omit [Operator Op] in
/-- No later step touches the operands of the first one. -/
theorem apart {later : Step Op} (listed : later ∈ steps) {id : Nat}
    (written : id ∈ later.node.outputs) :
    id ∉ step.node.inputs ∧ id ∉ step.node.outputs :=
  (List.pairwise_cons.mp runnable.ordered.fresh).1 later.node (List.mem_map_of_mem listed) id
    written

end Runnable

/-- A series of runs that breaks no internal contract runs every step, or stops at the first step
that fails and does not look at the steps after it. In both cases it changes the fronts of outputs
only. -/
theorem runSteps_framed {settings : Settings} {steps : List (Step Op)} {trace : List TraceEvent}
    (runnable : Runnable values blobs steps)
    (reported : (runSteps settings values schedule steps blobs trace).outcome.FailsOnly
      Fault.Reported) :
    let report := runSteps settings values schedule steps blobs trace
    BlobTable.Framed values (fun id => ∃ step ∈ steps, id ∈ step.node.outputs) blobs report.blobs ∧
      ((report.outcome = .ok () ∧
          ∀ step ∈ steps, step.Ran values schedule blobs report.blobs (.ok ())) ∨
        ∃ before step after cause, steps = before ++ step :: after ∧
          report.outcome = .error (.refused cause) ∧
          StoppedAt values schedule blobs report.blobs before step after cause ∧
          ∀ others, runSteps settings values schedule (before ++ step :: others) blobs trace =
            report) := by
  induction steps generalizing blobs trace with
  | nil => exact ⟨.refl blobs, .inl ⟨rfl, fun _ listed => (nomatch listed)⟩⟩
  | cons head steps inductionHypothesis =>
      obtain ⟨output, value, blob, inputs, room, lent⟩ := runnable.exists_lent
      have ended := (lent.runStep schedule).1
      have framedHead := lent.framed schedule
      have ranHead := lent.ran schedule
      rw [← ended] at framedHead ranHead
      cases first : runStep values schedule head blobs with
      | mk middle outcome =>
          rw [first] at framedHead ranHead
          cases outcome with
          | error fault =>
              have stopped := fun others =>
                @runSteps_of_error _ _ _ _ _ schedule settings trace _ _ first others
              rw [stopped] at reported
              obtain ⟨cause, rfl⟩ := reported fault rfl
              rw [stopped]
              refine ⟨(framedHead reported).mono fun id written =>
                ⟨head, List.mem_cons_self, written⟩, .inr ⟨[], head, steps, cause, rfl, rfl,
                  ⟨by simp, ranHead reported, ?_⟩, stopped⟩⟩
              intro later listed id written
              exact (framedHead reported).unwritten id (runnable.apart listed written).2
          | ok done =>
              have framedHead := framedHead (.pure ())
              have ranHead := ranHead (.pure ())
              obtain ⟨notices, goesOn⟩ :=
                @runSteps_of_ok _ _ _ _ _ schedule settings trace _ first
              rw [goesOn] at reported ⊢
              obtain ⟨framedRest, ends⟩ :=
                inductionHypothesis (runnable.tail framedHead.rooms) reported
              have unmoved : ∀ later ∈ steps, ∀ id ∈ later.node.outputs,
                  blobs.get? id = middle.get? id := fun later listed id written =>
                (framedHead.unwritten id (runnable.apart listed written).2).symm
              have headAgain := ranHead.congr (fun _ _ => rfl) fun id used =>
                framedRest.unwritten id fun ⟨later, listed, written⟩ =>
                  (List.mem_append.mp used).elim (runnable.apart listed written).1
                    (runnable.apart listed written).2
              refine ⟨(framedHead.mono fun id written => ⟨head, List.mem_cons_self, written⟩).trans
                (framedRest.mono fun id ⟨later, listed, written⟩ =>
                  ⟨later, List.mem_cons_of_mem _ listed, written⟩), ?_⟩
              rcases ends with ⟨succeeded, ranRest⟩ |
                ⟨before, step, after, cause, rfl, failed, stopped, unseen⟩
              · exact .inl ⟨succeeded, List.forall_mem_cons.mpr ⟨headAgain, fun later listed =>
                  (ranRest later listed).congr (unmoved later listed) fun _ _ => rfl⟩⟩
              · refine .inr ⟨head :: before, step, after, cause, rfl, failed,
                  stopped.cons headAgain unmoved, fun others => ?_⟩
                rw [List.cons_append, goesOn, unseen others]

/-- Operators that break no internal contract make a series of runs that breaks none. -/
theorem runSteps_reported {settings : Settings} {steps : List (Step Op)} {trace : List TraceEvent}
    (runnable : Runnable values blobs steps)
    (reports : ∀ step ∈ steps, ∀ inputs room,
      (Operator.run step.operator schedule inputs room).outcome.FailsOnly Fault.Reported) :
    (runSteps settings values schedule steps blobs trace).outcome.FailsOnly Fault.Reported := by
  induction steps generalizing blobs trace with
  | nil => exact .pure ()
  | cons head steps inductionHypothesis =>
      rw [List.forall_mem_cons] at reports
      obtain ⟨output, value, blob, inputs, room, lent⟩ := runnable.exists_lent
      have reported := reports.1 inputs room
      have framed := lent.framed schedule reported
      rw [← (lent.runStep schedule).1] at reported
      cases first : runStep values schedule head blobs with
      | mk middle outcome =>
          rw [first] at framed reported
          cases outcome with
          | error fault =>
              rw [runSteps_of_error first]
              exact reported
          | ok done =>
              obtain ⟨notices, goesOn⟩ :=
                @runSteps_of_ok _ _ _ _ _ schedule settings trace _ first
              rw [goesOn]
              exact inductionHypothesis (runnable.tail framed.rooms) reports.2

/-! ## Whole runs -/

/-- After a failure a run does nothing. -/
theorem Bound.run_of_failed {binding : Bound Op} (failed : binding.executable.state = .failed)
    (schedule : Schedule) :
    binding.run schedule = ⟨[], (binding, Outcome.invalidState .failedEarlier)⟩ := by
  unfold Bound.run
  dsimp only
  rw [if_pos failed]

/-- Before a failure a run is a series of runs of all steps. -/
theorem Bound.run_of_live {binding : Bound Op} (live : binding.executable.state ≠ .failed)
    (schedule : Schedule) :
    (binding.run schedule).result =
      let report := runSteps binding.executable.settings binding.executable.values schedule
        binding.executable.steps binding.blobs binding.executable.trace
      (⟨{ binding.executable with
            trace := report.trace, state := Lifecycle.afterRun report.outcome }, report.blobs⟩,
        report.outcome) := by
  unfold Bound.run
  dsimp only
  rw [if_neg live]

end Frame

end TensorEngine
