import TensorEngine.Proofs.Execution.RunFrame
import TensorEngine.Proofs.Execution.Safety

/-!
Contract: runs of operators that may fail at any point and may write anything before.

Owns:
- `Engine.Sound`, what calls keep of an engine as long as they return;
- the theorem on what a run changes, and on where it stops when an operator fails;
- `ScriptedOperator`, operators that fail on purpose.

Does not own: what happens after a failed run.
-/

namespace TensorEngine

namespace Engine

variable {Op : Type} [Operator Op]

/-- What calls keep of an engine for a graph: it rests in a state other than running, and while it
is bound, it is bound or failed, and all operands have correct blobs. -/
structure Sound (graph : Graph) (engine : Engine Op) : Prop where
  executes : engine.executable.Executes graph
  rests : engine.executable.state ≠ .running
  ready : ∀ blobs, engine.binding = some blobs →
    engine.executable.state = .bound ∨ engine.executable.state = .failed
  binds : ∀ blobs, engine.binding = some blobs → engine.executable.BindsAll blobs

/-- Calls that return to the caller one after another, with an error or without: none of them breaks
an internal contract. -/
def Returns (engine : Engine Op) : List EngineCall → Prop
  | [] => True
  | call :: calls =>
      (engine.perform call).2.FailsOnly Fault.Reported ∧ (engine.after call).Returns calls

instance decidableReturns (engine : Engine Op) (calls : List EngineCall) :
    Decidable (engine.Returns calls) :=
  match calls with
  | [] => isTrue trivial
  | _ :: calls =>
      have : ∀ after : Engine Op, Decidable (after.Returns calls) := fun after =>
        decidableReturns after calls
      inferInstanceAs (Decidable (_ ∧ _))

namespace Sound

variable {graph : Graph} {engine : Engine Op} {blobs : BlobTable}

omit [Operator Op] in
/-- An engine without a binding is sound in every state but one. -/
theorem unbound {executable : Executable Op} (executes : executable.Executes graph)
    (rests : executable.state ≠ .running) : (start executable).Sound graph :=
  ⟨executes, rests, nofun, nofun⟩

omit [Operator Op] in
theorem runnable (sound : engine.Sound graph) (wellFormed : graph.WellFormed)
    (bound : engine.binding = some blobs) :
    Runnable engine.executable.values blobs engine.executable.steps where
  ordered := by
    rw [sound.executes.nodes_eq]
    exact wellFormed.ordered
  computes step listed := by
    refine sound.executes.computes wellFormed ?_
    rw [← sound.executes.nodes_eq]
    exact List.mem_map_of_mem listed
  filled _ _ _ found static := sound.executes.table.filled wellFormed found static
  lendable step listed id used := by
    obtain ⟨value, found, bound⟩ := sound.binds blobs bound id
      (List.mem_flatMap.mpr ⟨step.node, List.mem_map_of_mem listed, used⟩)
    exact ⟨value, found, bound, False.elim⟩

/-- A run that returns changes the fronts of outputs only, and leaves the engine bound after a
success and failed after a failure. -/
theorem run_framed (sound : engine.Sound graph) (wellFormed : graph.WellFormed)
    (bound : engine.binding = some blobs) {schedule : Schedule} :
    let done := ((⟨engine.executable, blobs⟩ : Bound Op).run schedule).result
    done.2.FailsOnly Fault.Reported →
      BlobTable.Framed engine.executable.values (fun id => ∃ node ∈ graph.nodes, id ∈ node.outputs)
        blobs done.1.blobs ∧
      match done.2 with
      | .ok () => done.1.executable.state = .bound
      | .error _ => done.1.executable.state = .failed := by
  by_cases failed : engine.executable.state = .failed
  · rw [Bound.run_of_failed failed]
    exact fun _ => ⟨.refl blobs, failed⟩
  · rw [Bound.run_of_live failed]
    intro done reported
    have framed := (runSteps_framed (sound.runnable wellFormed bound) reported).1
    refine ⟨framed.mono fun id ⟨step, listed, written⟩ => ⟨step.node, ?_, written⟩, ?_⟩
    · rw [← sound.executes.nodes_eq]
      exact List.mem_map_of_mem listed
    · revert reported
      show done.2.FailsOnly _ → _
      have state : done.1.executable.state = Lifecycle.afterRun done.2 := rfl
      rw [state]
      cases done.2 with
      | ok finished => exact fun _ => rfl
      | error fault =>
          intro reported
          obtain ⟨cause, rfl⟩ := reported fault rfl
          rfl

/-- A set-up that succeeds has found correct blobs for all operands. -/
theorem binds_of_setup (sound : engine.Sound graph) (wellFormed : graph.WellFormed)
    (succeeded : (engine.executable.setup blobs).result.2 = .ok ()) :
    (engine.executable.setup blobs).result.1.BindsAll blobs := by
  have same : (engine.executable.setup blobs).result.1.SameDemands engine.executable :=
    ⟨rfl, engine.executable.setup_nodes blobs⟩
  rw [Executable.setup_outcome _ blobs (sound.executes.operands_found wellFormed),
    bind_eq_ok_iff] at succeeded
  obtain ⟨_, passed, _⟩ := succeeded
  exact same.bindsAll (.refl blobs) ((sound.executes.checks_iff wellFormed blobs).mp passed)

omit [Operator Op] in
/-- A call on bound blobs keeps an engine sound if it keeps its demands and the rooms of the blobs,
and leaves the state bound or failed. -/
theorem onBinding (sound : engine.Sound graph) {call : Bound Op → Bound Op × Outcome Unit}
    (keeps : ∀ blobs, engine.binding = some blobs →
      let done := (call ⟨engine.executable, blobs⟩).1
      done.executable.SameDemands engine.executable ∧ done.blobs.SameRooms blobs ∧
        (done.executable.state = .bound ∨ done.executable.state = .failed)) :
    (engine.onBinding call).1.Sound graph := by
  unfold Engine.onBinding
  cases bound : engine.binding with
  | none =>
      obtain ⟨executable, binding⟩ := engine
      exact sound
  | some blobs =>
      obtain ⟨same, rooms, ready⟩ := keeps blobs bound
      refine ⟨sound.executes.congr same.values_eq same.nodes_eq, ?_, ?_, ?_⟩
      · rcases ready with ready | ready
        · exact fun running => (nomatch ready.symm.trans running)
        · exact fun running => (nomatch ready.symm.trans running)
      · exact fun _ _ => ready
      · rintro _ ⟨⟩
        exact same.bindsAll rooms (sound.binds blobs bound)

theorem after (sound : engine.Sound graph) (wellFormed : graph.WellFormed) (call : EngineCall)
    (returned : (engine.perform call).2.FailsOnly Fault.Reported) :
    (engine.after call).Sound graph := by
  have executes : (engine.after call).executable.Executes graph :=
    executes_afterCalls wellFormed sound.executes [call]
  cases call with
  | reshape id shape =>
      refine unbound executes ?_
      show (engine.executable.reshape id shape).result.1.state ≠ .running
      unfold Executable.reshape
      split
      · exact sound.rests
      · exact nofun
  | setup blobs =>
      have state : (engine.after (.setup blobs)).executable.state =
          engine.executable.state.afterSetup (engine.executable.setup blobs).result.2 := rfl
      have binding : (engine.after (.setup blobs)).binding =
          if (engine.executable.setup blobs).result.2.isOk then some blobs else none := rfl
      change (engine.executable.setup blobs).result.2.FailsOnly Fault.Reported at returned
      cases ended : (engine.executable.setup blobs).result.2 with
      | ok done =>
          rw [ended] at state binding
          refine ⟨executes, ?_, fun _ _ => .inl state, ?_⟩
          · rw [state]
            exact nofun
          · intro others given
            rw [binding] at given
            cases given
            exact sound.binds_of_setup wellFormed ended
      | error fault =>
          obtain ⟨cause, rfl⟩ := returned fault ended
          rw [ended] at state binding
          refine ⟨executes, ?_, ?_, ?_⟩
          · rw [state]
            exact nofun
          · exact fun _ given => (nomatch binding.symm.trans given)
          · exact fun _ given => (nomatch binding.symm.trans given)
  | run schedule =>
      refine sound.onBinding fun blobs bound => ?_
      unfold perform Engine.onBinding at returned
      rw [bound] at returned
      obtain ⟨framed, state⟩ := sound.run_framed wellFormed bound returned
      refine ⟨Bound.run_sameDemands _ _, framed.rooms, ?_⟩
      split at state
      · exact .inl state
      · exact .inr state
  | overwrite id bytes =>
      refine sound.onBinding fun blobs bound => ?_
      dsimp only
      split
      · rename_i written _ ran
        rw [Bound.overwrite_executable ran]
        exact ⟨.refl _, Bound.overwrite_rooms ran, sound.ready blobs bound⟩
      · exact ⟨.refl _, .refl _, sound.ready blobs bound⟩
  | release => exact unbound executes sound.rests
  | clearTrace => exact unbound executes sound.rests

theorem afterCalls (sound : engine.Sound graph) (wellFormed : graph.WellFormed)
    {calls : List EngineCall} (returned : engine.Returns calls) :
    (engine.afterCalls calls).Sound graph := by
  induction calls generalizing engine with
  | nil => exact sound
  | cons call calls inductionHypothesis =>
      exact inductionHypothesis (sound.after wellFormed call returned.1) returned.2

end Sound

theorem returns_append {engine : Engine Op} {earlier later : List EngineCall} :
    engine.Returns (earlier ++ later) ↔
      engine.Returns earlier ∧ (engine.afterCalls earlier).Returns later := by
  induction earlier generalizing engine with
  | nil => exact (and_iff_right trivial).symm
  | cons call earlier inductionHypothesis =>
      rw [List.cons_append, Returns, Returns, inductionHypothesis, and_assoc]
      rfl

end Engine

theorem Assembled.sound {Op : Type} {graph : Graph} {settings : Settings}
    {executable : Executable Op} (assembled : Assembled graph settings executable)
    (admitted : graph.Admitted) : (Engine.start executable).Sound graph := by
  refine .unbound (assembled.executes admitted) ?_
  rw [assembled.state_eq]
  exact nofun

/-- A run touches the fronts of outputs only and stops at the first operator that fails.

The graph has been built by any calls and compiled with any catalog. Its operators may fail at any
set-up or run and may write anything into the part of an output they are lent. Any calls have been
made since, up to a run on bound blobs, and each of them has returned, with an error or without.
Then all blobs are there after the run, with their sizes, addresses and permissions; those that can
only be read and those that no node computes have not changed, nor has any byte past the end of a
value. If an earlier run has failed, nothing has happened. Else every operator has run and the graph
is bound; or one operator has failed, its error is returned and the graph is failed: the operators
before it have run, what they and it have written is in the blobs, and the outputs of the operators
after it are as they were. These have not run, since any others in their place would have given the
same run. -/
theorem run_stops_at_failure {Op : Type} [Operator Op] (catalog : Catalog Op) (count : Nat)
    (calls : List BuildCall) (settings : Settings) (workshop : Workshop)
    (executable : Executable Op) (closed : Graph)
    (compiled : (compile catalog ((Graph.withExternalValues count).afterCalls calls) settings
      workshop).1 = .ok (executable, closed))
    (history : List EngineCall) (schedule : Schedule)
    (returns : (Engine.start executable).Returns (history ++ [.run schedule])) (blobs : BlobTable)
    (bound : ((Engine.start executable).afterCalls history).binding = some blobs) :
    let graph := (Graph.withExternalValues count).afterCalls calls
    let ready := ((Engine.start executable).afterCalls history).executable
    let run := (⟨ready, blobs⟩ : Bound Op).run schedule
    let done := run.result
    ready.steps.map (·.node) = graph.nodes ∧
    BlobTable.Framed ready.values (fun id => ∃ node ∈ graph.nodes, id ∈ node.outputs) blobs
      done.1.blobs ∧
    ((ready.state = .failed ∧ done = (⟨ready, blobs⟩, Outcome.invalidState .failedEarlier)) ∨
      (done.2 = .ok () ∧ done.1.executable.state = .bound ∧
        ∀ step ∈ ready.steps, step.Ran ready.values schedule blobs done.1.blobs (.ok ())) ∨
      ∃ before step after cause, ready.steps = before ++ step :: after ∧
        done.2 = .error (.refused cause) ∧ done.1.executable.state = .failed ∧
        StoppedAt ready.values schedule blobs done.1.blobs before step after cause ∧
        ∀ others : List (Step Op),
          (⟨{ ready with steps := before ++ step :: others }, blobs⟩ : Bound Op).run schedule =
            ⟨run.notices, (⟨{ done.1.executable with steps := before ++ step :: others },
              done.1.blobs⟩, done.2)⟩) := by
  intro graph ready run done
  have wellFormed : graph.WellFormed := Graph.wellFormed_afterCalls count calls
  obtain ⟨returnsBefore, returned, _⟩ := Engine.returns_append.mp returns
  have sound : ((Engine.start executable).afterCalls history).Sound graph :=
    ((Assembled.of_compiled compiled).sound (Graph.admitted_afterCalls count calls)).afterCalls
      wellFormed returnsBefore
  have reported : done.2.FailsOnly Fault.Reported := by
    unfold Engine.perform Engine.onBinding at returned
    rw [bound] at returned
    exact returned
  obtain ⟨framed, state⟩ := sound.run_framed wellFormed bound reported
  refine ⟨sound.executes.nodes_eq, framed, ?_⟩
  by_cases failed : ready.state = .failed
  · exact .inl ⟨failed, congrArg Journaled.result (Bound.run_of_failed failed schedule)⟩
  · have ran : done = _ := Bound.run_of_live failed schedule
    have runnable := sound.runnable wellFormed bound
    have ended : done.2 = (runSteps ready.settings ready.values schedule ready.steps blobs
        ready.trace).outcome := congrArg Prod.snd ran
    rw [ended] at reported
    obtain ⟨_, ends⟩ := runSteps_framed runnable reported
    have blobsEq : done.1.blobs = (runSteps ready.settings ready.values schedule ready.steps blobs
        ready.trace).blobs := congrArg (fun done => done.1.blobs) ran
    rw [← ended, ← blobsEq] at ends
    rcases ends with ⟨succeeded, each⟩ |
      ⟨before, step, after, cause, split, refused, stopped, unseen⟩
    · rw [succeeded] at state
      exact .inr (.inl ⟨succeeded, state, each⟩)
    · rw [refused] at state
      refine .inr (.inr ⟨before, step, after, cause, split, refused, state, stopped,
        fun others => ?_⟩)
      simp only [done, run]
      unfold Bound.run
      dsimp only
      rw [if_neg failed, if_neg failed, unseen others]

/-- An operator that fills the room it is lent with one byte, and fails where it is told to. -/
structure ScriptedOperator where
  kind : OpKind
  byte : UInt8
  failsSetup : Bool := false
  failsRun : Bool := false

namespace ScriptedOperator

def ending (fails : Bool) : Outcome Unit :=
  if fails then Outcome.invalidState (.told "scripted") else .ok ()

instance : Operator ScriptedOperator where
  kind := kind
  packed? _ := none
  setup operator _ _ := (operator, ending operator.failsSetup)
  run operator _ _ output :=
    ⟨Array.replicate output.bytes.size operator.byte, ending operator.failsRun⟩
  run_size _ _ _ _ := Array.size_replicate

/-- A catalog of scripted operators of single precision. -/
def catalog (operators : List ScriptedOperator) : Catalog ScriptedOperator where
  features := .portable
  entries := operators.map fun operator =>
    ⟨⟨operator.kind, .fp32⟩, .portable, 0, ⟨"scripted", fun _ => pure operator⟩⟩

end ScriptedOperator

/-- Three nodes in a row, the last of the kind of the first. -/
def stagedGraph : List BuildCall :=
  [.tensor ⟨.float32, [1], none, some 0, .externalInput⟩,
    .tensor ⟨.float32, [1], none, some 1, .externalOutput⟩,
    .tensor ⟨.float32, [1], none, none, .none⟩,
    .tensor ⟨.float32, [1], none, none, .none⟩,
    .node .abs [0] [2] .none 0,
    .node .negate [2] [3] .none 0,
    .node .abs [3] [1] .none 0]

def stagedExecutable (abs negate : ScriptedOperator) : Executable ScriptedOperator where
  values := ((Graph.withExternalValues 2).afterCalls stagedGraph).values
  steps := [⟨⟨0, .abs, .fp32, [0], [2], .none, 0⟩, abs⟩,
    ⟨⟨1, .negate, .fp32, [2], [3], .none, 0⟩, negate⟩,
    ⟨⟨2, .abs, .fp32, [3], [1], .none, 0⟩, abs⟩]
  state := .compiled
  settings := {}
  sharesPacked := false
  sharesTables := false
  trace := []

/-- Blobs of six bytes for the staged graph, of which the input can only be read. -/
def stagedBlobs : BlobTable :=
  [(0, false), (1, true), (2, true), (3, true)].foldl
    (fun table entry => table.insert entry.1 ⟨Buffer.fresh (Array.replicate 6 0), entry.2⟩) .empty

/-- The theorem applies to the staged graph with a second operator that fails: the run stops there,
and the blobs of both outputs written so far end in the bytes that no value reaches. -/
theorem run_stops_at_failure_staged :
    let executable := stagedExecutable ⟨.abs, 7, false, false⟩ ⟨.negate, 9, false, true⟩
    let ready := ((Engine.start executable).afterCalls [.setup stagedBlobs]).executable
    let done := ((⟨ready, stagedBlobs⟩ : Bound ScriptedOperator).run .sequential).result
    (∃ before step after cause, ready.steps = before ++ step :: after ∧
      StoppedAt ready.values .sequential stagedBlobs done.1.blobs before step after cause) ∧
      [1, 2, 3].map (fun id => (done.1.blobs.get? id).map (·.buffer.bytes)) =
        [some #[0, 0, 0, 0, 0, 0], some #[7, 7, 7, 7, 0, 0], some #[9, 9, 9, 9, 0, 0]] := by
  intro executable ready done
  have compiled : (compile (ScriptedOperator.catalog [⟨.abs, 7, false, false⟩,
      ⟨.negate, 9, false, true⟩]) ((Graph.withExternalValues 2).afterCalls stagedGraph) {} {}).1 =
        .ok (executable, ((Graph.withExternalValues 2).afterCalls stagedGraph).closed) := by
    cbv
  have stops := run_stops_at_failure _ 2 stagedGraph {} {} executable _ compiled
    [.setup stagedBlobs] .sequential (by decide +kernel) stagedBlobs (by decide +kernel)
  refine ⟨?_, by decide +kernel⟩
  obtain ⟨_, _, ⟨failed, _⟩ | ⟨succeeded, _⟩ |
    ⟨before, step, after, cause, split, _, _, stopped, _⟩⟩ := stops
  · exact absurd failed (by decide +kernel)
  · have refused : done.2.isOk = false := by decide +kernel
    exact absurd (refused.symm.trans (congrArg Except.isOk succeeded)) (by decide)
  · exact ⟨before, step, after, cause, split, stopped⟩

end TensorEngine
