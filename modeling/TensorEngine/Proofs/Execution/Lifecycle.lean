import TensorEngine.Proofs.Execution.FaultyRun
import TensorEngine.Proofs.Execution.PathIndependence

/-!
Contract: the states of a compiled graph between calls, and what they allow.

Owns:
- `Operator.Reports`, operators that fail with errors only, and the theorem that all calls return;
- `Engine.SetsUp` and `Bound.Inert`, by which a failed graph does nothing before the next set-up;
- the set-up that made a binding, found in the history;
- the theorem on the states after any calls.

Does not own: what runs and set-ups compute.
-/

namespace TensorEngine

/-- Operators that end with an error at worst: none of them breaks an internal contract. -/
structure Operator.Reports (Op : Type) [Operator Op] : Prop where
  setup : ∀ (operator : Op) (inputs : List Shape) (output : Shape),
    (Operator.setup operator inputs output).2.FailsOnly Fault.Reported
  run : ∀ (operator : Op) (schedule : Schedule) (inputs : List Buffer) (room : Buffer),
    (Operator.run operator schedule inputs room).outcome.FailsOnly Fault.Reported

/-! ## Calls return -/

section Returns

variable {Op : Type}

theorem Outcome.FailsOnly.forM {α : Type} {fails : Fault → Prop} {elements : List α}
    {check : α → Outcome Unit} (each : ∀ element ∈ elements, (check element).FailsOnly fails) :
    FailsOnly fails (elements.forM check) := by
  intro fault failed
  obtain ⟨before, element, after, rfl, _, fails⟩ := exists_of_forM_eq_error failed
  exact each element (by simp) fault fails

/-- A check that returns has passed or has found an error. -/
theorem Outcome.FailsOnly.ended {outcome : Outcome Unit}
    (reported : outcome.FailsOnly Fault.Reported) :
    outcome = .ok () ∨ ∃ cause, outcome = .error (.refused cause) := by
  cases outcome with
  | ok done => exact .inl rfl
  | error fault =>
      obtain ⟨cause, rfl⟩ := reported fault rfl
      exact .inr ⟨cause, rfl⟩

theorem Node.ShapesFollow.exists_operandShapes {node : Node} {values : List Value}
    (follow : node.ShapesFollow (values.map (·.shape))) :
    ∃ shapes, operandShapes values node = .ok shapes := by
  obtain ⟨inputs, id, output, found, outputs, foundOutput, _⟩ := follow
  rw [List.getElem?_map, Option.map_eq_some_iff] at foundOutput
  obtain ⟨value, foundValue, _⟩ := foundOutput
  have read : (node.inputs.mapM fun id => (·.shape) <$> operand values id) =
      (.ok inputs : Outcome (List Shape)) := by
    rw [mapM_eq_ok_iff]
    apply found.imp
    intro id shape found
    rw [List.getElem?_map, Option.map_eq_some_iff] at found
    obtain ⟨value, foundValue, same⟩ := found
    exact map_eq_ok_iff.mpr ⟨value, operand_eq_ok_iff.mpr foundValue, same⟩
  refine ⟨(inputs, value.shape), ?_⟩
  unfold operandShapes
  rw [read, outputs]
  exact bind_eq_ok_iff.mpr ⟨inputs, rfl, bind_eq_ok_iff.mpr ⟨id, rfl,
    bind_eq_ok_iff.mpr ⟨value, operand_eq_ok_iff.mpr foundValue, rfl⟩⟩⟩

namespace Executable.Executes

variable {executable : Executable Op} {graph : Graph} (executes : executable.Executes graph)
  (wellFormed : graph.WellFormed)

include executes wellFormed

theorem reshape_reported (id : Nat) (shape : Shape) :
    (executable.reshape id shape).result.2.FailsOnly Fault.Reported := by
  cases ran : executable.reshaped id shape with
  | ok shapes =>
      rw [Executable.reshape_of_ok ran]
      exact .pure ()
  | error fault =>
      rw [Executable.reshape_of_error ran]
      intro other failed
      cases failed
      obtain ⟨cause, rfl⟩ := executes.reshaped_refuses wellFormed id shape fault ran
      exact ⟨_, rfl⟩

theorem setup_reported [Operator Op] (reports : Operator.Reports Op) (blobs : BlobTable) :
    (executable.setup blobs).result.2.FailsOnly Fault.Reported := by
  rw [Executable.setup_outcome _ blobs (executes.operands_found wellFormed)]
  refine (Outcome.FailsOnly.forM fun id used => ?_).bind fun _ _ =>
    Outcome.FailsOnly.forM fun step listed => ?_
  · intro fault failed
    have checked := executes.checkBound_outcome wellFormed blobs used
    rw [failed] at checked
    exact checked.2.imp fun cause given => given.1
  · have among : step.node ∈ graph.nodes := by
      rw [← executes.nodes_eq]
      exact List.mem_map_of_mem listed
    obtain ⟨shapes, found⟩ := (executes.follow step.node among).exists_operandShapes
    exact .known found (reports.setup _ _ _)

end Executable.Executes

/-- Bytes are refused with an error. -/
theorem Bound.overwrite_reported (binding : Bound Op) (id : ValueId) (bytes : Bytes) :
    (binding.overwrite UInt8 id bytes).FailsOnly Fault.Reported := by
  have refused : ∀ cause : ParameterFault,
      (Outcome.invalidParameter cause : Outcome (Bound Op × Nat)).FailsOnly Fault.Reported := by
    rintro cause _ ⟨⟩
    exact ⟨_, rfl⟩
  unfold Bound.overwrite
  split
  · exact refused _
  · split
    · exact refused _
    · refine Outcome.FailsOnly.bind ?_ fun _ _ => .pure _
      intro fault failed
      unfold Outcome.view Outcome.ofParameter at failed
      generalize Buffer.view UInt8 _ = viewed at failed
      cases viewed with
      | ok bytes => cases failed
      | error cause =>
          cases failed
          exact ⟨_, rfl⟩

variable [Operator Op] {graph : Graph} {engine : Engine Op}

namespace Engine

omit [Operator Op] in
/-- A call on the bound blobs returns if it does on the blobs of the binding. -/
theorem onBinding_reported {call : Bound Op → Bound Op × Outcome Unit}
    (reported : ∀ blobs, engine.binding = some blobs →
      (call ⟨engine.executable, blobs⟩).2.FailsOnly Fault.Reported) :
    (engine.onBinding call).2.FailsOnly Fault.Reported := by
  unfold onBinding
  split
  · exact .pure ()
  · rename_i blobs bound
    exact reported blobs bound

theorem Sound.returned (sound : engine.Sound graph) (wellFormed : graph.WellFormed)
    (reports : Operator.Reports Op) (call : EngineCall) :
    (engine.perform call).2.FailsOnly Fault.Reported := by
  cases call with
  | reshape id shape => exact sound.executes.reshape_reported wellFormed id shape
  | setup blobs => exact sound.executes.setup_reported wellFormed reports blobs
  | run schedule =>
      refine onBinding_reported fun blobs bound => ?_
      by_cases failed : engine.executable.state = .failed
      · rw [Bound.run_of_failed failed]
        rintro _ ⟨⟩
        exact ⟨_, rfl⟩
      · rw [Bound.run_of_live failed]
        exact runSteps_reported (sound.runnable wellFormed bound) fun step _ inputs room =>
          reports.run step.operator schedule inputs room
  | overwrite id bytes =>
      refine onBinding_reported fun blobs _ => ?_
      split
      · exact .pure ()
      · rename_i fault failed
        rintro _ ⟨⟩
        exact Bound.overwrite_reported _ id bytes fault failed
  | release => exact .pure ()
  | clearTrace => exact .pure ()

theorem Sound.returns (sound : engine.Sound graph) (wellFormed : graph.WellFormed)
    (reports : Operator.Reports Op) (calls : List EngineCall) : engine.Returns calls := by
  induction calls generalizing engine with
  | nil => exact trivial
  | cons call calls inductionHypothesis =>
      have returned := sound.returned wellFormed reports call
      exact ⟨returned, inductionHypothesis (sound.after wellFormed call returned)⟩

end Engine

end Returns

/-! ## Failed bindings -/

section Failed

variable {Op : Type} [Operator Op]

/-- A binding on which no run does anything, whatever the operators are: it is refused, the binding
stays as it is, and nothing is reported beside. -/
def Bound.Inert (binding : Bound Op) : Prop :=
  ∀ (steps : List (Step Op)) (schedule : Schedule),
    let other : Bound Op := ⟨{ binding.executable with steps := steps }, binding.blobs⟩
    other.run schedule = ⟨[], (other, Outcome.invalidState .failedEarlier)⟩

namespace Engine

omit [Operator Op] in
/-- What is bound after a call on bound blobs was bound before. -/
theorem exists_bound {engine : Engine Op} {call : Bound Op → Bound Op × Outcome Unit}
    {blobs : BlobTable} (bound : (engine.onBinding call).1.binding = some blobs) :
    ∃ others, engine.binding = some others ∧
      (engine.onBinding call).1.executable = (call ⟨engine.executable, others⟩).1.executable := by
  unfold onBinding at bound ⊢
  cases before : engine.binding with
  | none =>
      rw [before] at bound
      exact nomatch before.symm.trans bound
  | some others => exact ⟨others, rfl, rfl⟩

/-- Whether some set-up of these calls succeeds. -/
def SetsUp (engine : Engine Op) : List EngineCall → Prop
  | [] => False
  | call :: calls =>
      ((∃ blobs, call = .setup blobs) ∧ (engine.perform call).2 = .ok ()) ∨
        (engine.after call).SetsUp calls

/-- A binding that has failed stays so, and no other one comes up, while no set-up succeeds. -/
theorem failed_after {engine : Engine Op}
    (failed : ∀ blobs, engine.binding = some blobs → engine.executable.state = .failed)
    {calls : List EngineCall} (unready : ¬ engine.SetsUp calls) :
    ∀ blobs, (engine.afterCalls calls).binding = some blobs →
      (engine.afterCalls calls).executable.state = .failed := by
  induction calls generalizing engine with
  | nil => exact failed
  | cons call calls inductionHypothesis =>
      obtain ⟨unreadyHead, unreadyRest⟩ := not_or.mp unready
      refine @inductionHypothesis (engine.after call) ?_ unreadyRest
      intro blobs bound
      cases call with
      | reshape id shape => cases bound
      | setup given =>
          have outcome : (engine.executable.setup given).result.2.isOk = false := by
            cases ended : (engine.executable.setup given).result.2 with
            | ok done => exact absurd ⟨⟨given, rfl⟩, ended⟩ unreadyHead
            | error fault => rfl
          have binding : (engine.after (.setup given)).binding =
              if (engine.executable.setup given).result.2.isOk then some given else none := rfl
          rw [bound, outcome] at binding
          cases binding
      | run schedule =>
          obtain ⟨others, before, same⟩ := exists_bound bound
          show (engine.onBinding _).1.executable.state = .failed
          rw [same, Bound.run_of_failed (failed others before)]
          exact failed others before
      | overwrite id bytes =>
          obtain ⟨others, before, _⟩ := exists_bound bound
          rw [after_overwrite]
          exact failed others before
      | release => cases bound
      | clearTrace => cases bound

/-- A binding that goes back to a set-up of its history: the set-up has succeeded, only calls on the
binding have been made since, and the operators are still those that it has set up for the current
shapes. -/
structure ReadiedBy (executable : Executable Op) (history earlier : List EngineCall)
    (first : BlobTable) (later : List EngineCall) : Prop where
  split : history = earlier ++ .setup first :: later
  since : ∀ call ∈ later, call.UsesBinding
  succeeded :
    (((start executable).afterCalls earlier).executable.setup first).result.2 = .ok ()
  values_eq : ((start executable).afterCalls history).executable.values =
    ((start executable).afterCalls earlier).executable.values
  ready : List.Forall₂ (Step.SetUp ((start executable).afterCalls history).executable.values)
    ((start executable).afterCalls earlier).executable.steps
    ((start executable).afterCalls history).executable.steps

/-- A call on the binding leaves it to the set-up that has made it. -/
theorem ReadiedBy.concat {executable : Executable Op} {history earlier later : List EngineCall}
    {first : BlobTable} (readied : ReadiedBy executable history earlier first later)
    {call : EngineCall} (uses : call.UsesBinding)
    (same : ∃ trace state,
      (((start executable).afterCalls history).after call).executable =
        { ((start executable).afterCalls history).executable with
          trace := trace, state := state }) :
    ReadiedBy executable (history ++ [call]) earlier first (later ++ [call]) := by
  obtain ⟨trace, state, same⟩ := same
  refine ⟨?_, ?_, readied.succeeded, ?_, ?_⟩
  · rw [readied.split, List.append_assoc, List.cons_append]
  · intro other listed
    rcases List.mem_append.mp listed with listed | listed
    · exact readied.since other listed
    · rw [List.mem_singleton.mp listed]
      exact uses
  · rw [afterCalls_concat, same]
    exact readied.values_eq
  · rw [afterCalls_concat, same]
    exact readied.ready

/-- Every binding goes back to a set-up. -/
theorem exists_readiedBy {executable : Executable Op} {history : List EngineCall}
    {blobs : BlobTable} (bound : ((start executable).afterCalls history).binding = some blobs) :
    ∃ earlier first later, ReadiedBy executable history earlier first later := by
  induction history using List.reverseRecOn generalizing blobs with
  | nil => cases bound
  | append_singleton history call inductionHypothesis =>
      rw [afterCalls_concat] at bound
      cases call with
      | reshape id shape => cases bound
      | setup given =>
          have binding : (((start executable).afterCalls history).after (.setup given)).binding =
              if (((start executable).afterCalls history).executable.setup given).result.2.isOk
                then some given else none := rfl
          cases ran : (((start executable).afterCalls history).executable.setup given).result with
          | mk readied outcome =>
              rw [ran, bound] at binding
              cases outcome with
              | error fault => cases binding
              | ok done =>
                  have same : (((start executable).afterCalls history).after
                      (.setup given)).executable = readied := congrArg Prod.fst ran
                  refine ⟨history, given, [], rfl, by simp, congrArg Prod.snd ran, ?_, ?_⟩
                  · rw [afterCalls_concat]
                    rfl
                  · rw [afterCalls_concat, same]
                    have valuesEq : readied.values =
                        ((start executable).afterCalls history).executable.values := by
                      rw [← same]
                      rfl
                    rw [valuesEq]
                    exact (setup_eq_ok_iff.mp ran).2.1
      | run schedule =>
          obtain ⟨others, before, _⟩ := exists_bound bound
          obtain ⟨earlier, first, later, readied⟩ := inductionHypothesis before
          have uses : (EngineCall.run schedule).UsesBinding := trivial
          exact ⟨earlier, first, _, readied.concat uses (after_run _ schedule)⟩
      | overwrite id bytes =>
          obtain ⟨others, before, _⟩ := exists_bound bound
          obtain ⟨earlier, first, later, readied⟩ := inductionHypothesis before
          have uses : (EngineCall.overwrite id bytes).UsesBinding := trivial
          exact ⟨earlier, first, _, readied.concat uses ⟨_, _, after_overwrite _ id bytes⟩⟩
      | release => cases bound
      | clearTrace => cases bound

end Engine

end Failed

/-- The states of a compiled graph are safe.

The graph has been built by any calls and compiled with any catalog, whose operators may fail with
errors, and any calls have been made since. Then it is not running. While there is a binding, it is
bound or failed; the binding goes back to a set-up that has succeeded, whose operators it still has,
set up for the current shapes; a run on a bound graph leaves it bound, or failed if it returns an
error; and once it has failed, no run does anything until a set-up succeeds, whatever other calls
are made. From any state, a set-up leaves the graph bound, or failed if it returns an error, and a
reshape leaves it compiled, or as it was if it returns an error. -/
theorem lifecycle_safe {Op : Type} [Operator Op] (reports : Operator.Reports Op)
    (catalog : Catalog Op) (count : Nat) (calls : List BuildCall) (settings : Settings)
    (workshop : Workshop) (executable : Executable Op) (closed : Graph)
    (compiled : (compile catalog ((Graph.withExternalValues count).afterCalls calls) settings
      workshop).1 = .ok (executable, closed))
    (history : List EngineCall) :
    let engine := (Engine.start executable).afterCalls history
    let current := engine.executable
    current.state ≠ .running ∧
    (∀ blobs, engine.binding = some blobs →
      (current.state = .bound ∨ current.state = .failed) ∧
      (∃ earlier first later, Engine.ReadiedBy executable history earlier first later) ∧
      (current.state = .bound → ∀ schedule,
        let done := ((⟨current, blobs⟩ : Bound Op).run schedule).result
        done.1.executable.steps = current.steps ∧
          ((done.2 = .ok () ∧ done.1.executable.state = .bound) ∨
            ∃ cause, done.2 = .error (.refused cause) ∧ done.1.executable.state = .failed)) ∧
      (current.state = .failed → ∀ later : List EngineCall, ¬ engine.SetsUp later →
        ∀ others, (engine.afterCalls later).binding = some others →
          (⟨(engine.afterCalls later).executable, others⟩ : Bound Op).Inert)) ∧
    ∀ state : Lifecycle,
      (∀ blobs,
        let done := ({ current with state := state }.setup blobs).result
        (done.2 = .ok () ∧ done.1.state = .bound) ∨
          ∃ cause, done.2 = .error (.refused cause) ∧ done.1.state = .failed) ∧
      ∀ id shape,
        let done := ({ current with state := state }.reshape id shape).result
        (done.2 = .ok () ∧ done.1.state = .compiled) ∨
          ∃ cause, done.2 = .error (.refused cause) ∧
            done.1 = { current with state := state } := by
  intro engine current
  have wellFormed := Graph.wellFormed_afterCalls count calls
  have soundStart := (Assembled.of_compiled compiled).sound (Graph.admitted_afterCalls count calls)
  have sound := soundStart.afterCalls wellFormed (soundStart.returns wellFormed reports history)
  refine ⟨sound.rests, fun blobs bound => ⟨sound.ready blobs bound,
    Engine.exists_readiedBy bound, fun isBound schedule => ?_, fun failed later unready others
      boundLater steps schedule => ?_⟩, fun state => ?_⟩
  · have returned := sound.returned wellFormed reports (.run schedule)
    unfold Engine.perform Engine.onBinding at returned
    rw [bound] at returned
    have left := (sound.run_framed wellFormed bound returned).2
    obtain ⟨_, _, same⟩ := Bound.run_executable (⟨current, blobs⟩ : Bound Op) schedule
    refine ⟨by rw [same], ?_⟩
    rcases returned.ended with succeeded | ⟨cause, refused⟩
    · rw [succeeded] at left
      exact .inl ⟨succeeded, left⟩
    · rw [refused] at left
      exact .inr ⟨cause, refused, left⟩
  · have stays := Engine.failed_after (fun _ _ => failed) unready others boundLater
    exact Bound.run_of_failed (by exact stays) schedule
  · have executes : ({ current with state := state } : Executable Op).Executes _ :=
      sound.executes.congr rfl rfl
    refine ⟨fun blobs => ?_, fun id shape => ?_⟩
    · have left : ({ current with state := state }.setup blobs).result.1.state =
          state.afterSetup ({ current with state := state }.setup blobs).result.2 := rfl
      rcases (executes.setup_reported wellFormed reports blobs).ended with
        succeeded | ⟨cause, refused⟩
      · rw [succeeded] at left
        exact .inl ⟨succeeded, left⟩
      · rw [refused] at left
        exact .inr ⟨cause, refused, left⟩
    · cases ran : ({ current with state := state } : Executable Op).reshaped id shape with
      | ok shapes =>
          rw [Executable.reshape_of_ok ran]
          exact .inl ⟨rfl, rfl⟩
      | error fault =>
          obtain ⟨cause, rfl⟩ := executes.reshaped_refuses wellFormed id shape fault ran
          rw [Executable.reshape_of_error ran]
          exact .inr ⟨_, rfl, rfl⟩

/-- Scripted operators fail with errors only. -/
theorem ScriptedOperator.reports : Operator.Reports ScriptedOperator := by
  have reported : ∀ fails, (ending fails).FailsOnly Fault.Reported := by decide
  exact ⟨fun operator _ _ => reported operator.failsSetup, fun operator _ _ _ =>
    reported operator.failsRun⟩

/-- The theorem applies to the staged graph after a run that has failed: other calls on the binding
do not make it run again. -/
theorem lifecycle_safe_staged :
    let engine := (Engine.start (stagedExecutable ⟨.abs, 7, false, false⟩
      ⟨.negate, 9, false, true⟩)).afterCalls [.setup stagedBlobs, .run .sequential]
    engine.executable.state = .failed ∧
      ∃ blobs, (engine.afterCalls [.overwrite 1 #[1, 2], .run .backwards]).binding = some blobs ∧
        (⟨(engine.afterCalls [.overwrite 1 #[1, 2], .run .backwards]).executable, blobs⟩ :
          Bound ScriptedOperator).Inert := by
  intro engine
  have compiled : (compile (ScriptedOperator.catalog [⟨.abs, 7, false, false⟩,
      ⟨.negate, 9, false, true⟩]) ((Graph.withExternalValues 2).afterCalls stagedGraph) {} {}).1 =
        .ok (stagedExecutable ⟨.abs, 7, false, false⟩ ⟨.negate, 9, false, true⟩,
          ((Graph.withExternalValues 2).afterCalls stagedGraph).closed) := by
    cbv
  have safe := lifecycle_safe ScriptedOperator.reports _ 2 stagedGraph {} {} _ _ compiled
    [.setup stagedBlobs, .run .sequential]
  have failed : engine.executable.state = .failed := by decide +kernel
  obtain ⟨blobs, bound⟩ := Option.isSome_iff_exists.mp
    (show engine.binding.isSome = true by decide +kernel)
  obtain ⟨others, boundLater⟩ := Option.isSome_iff_exists.mp
    (show (engine.afterCalls [.overwrite 1 #[1, 2], .run .backwards]).binding.isSome = true by
      decide +kernel)
  have unready : ¬ engine.SetsUp [.overwrite 1 #[1, 2], .run .backwards] := by
    simp [Engine.SetsUp]
  exact ⟨failed, others, boundLater,
    (safe.2.1 blobs bound).2.2.2 failed _ unready others boundLater⟩

end TensorEngine
