import TensorEngine.Proofs.Execution.FaultyRun

/-!
Contract: the trace of a compiled graph is the newest part of the log of all its events.

Owns:
- `Settings.Traces`, a trace that holds the newest events of a log, as many as the settings keep;
- the events of set-ups and of runs, one for each operator up to the first that fails;
- `Engine.logAfter`, the unbounded log of any calls since the trace was last emptied, and the
  theorem that the trace is its newest part.

Does not own: the texts of events and the elapsed times.
-/

namespace TensorEngine

open Making

/-! ## Windows of a log -/

namespace Settings

/-- A trace that holds the newest events of a log, as many as are kept, if events are recorded. -/
def Traces (settings : Settings) (log trace : List TraceEvent) : Prop :=
  if settings.trace then
    trace <:+ log ∧ trace.length = min (max settings.traceLimit 1) log.length
  else trace = []

namespace Traces

variable {settings : Settings} {log trace : List TraceEvent}

theorem empty (settings : Settings) : settings.Traces [] [] := by
  unfold Traces
  split
  · exact ⟨List.suffix_rfl, by simp⟩
  · rfl

theorem record (traces : settings.Traces log trace) (event : TraceEvent) :
    settings.Traces (log ++ [event]) (settings.record trace event) := by
  unfold Traces Settings.record at *
  split
  · rename_i traced
    rw [if_pos traced] at traces
    obtain ⟨newest, kept⟩ := traces
    constructor
    · obtain ⟨older, split⟩ := (List.drop_suffix _ trace).trans newest
      refine ⟨older, ?_⟩
      unfold pushBounded
      rw [← List.append_assoc, split]
    · simp only [pushBounded, List.length_append, List.length_drop, List.length_singleton]
      omega
  · rename_i untraced
    rw [if_neg untraced] at traces
    exact traces

/-- Without an event the log stays as it was. -/
theorem quiet (traces : settings.Traces log trace) : settings.Traces (log ++ []) trace := by
  rw [List.append_nil]
  exact traces

theorem recordAll (traces : settings.Traces log trace) (events : List TraceEvent) :
    settings.Traces (log ++ events) (events.foldl settings.record trace) := by
  induction events generalizing log trace with
  | nil => exact traces.quiet
  | cons event events inductionHypothesis =>
      rw [List.append_cons]
      exact inductionHypothesis (traces.record event)

end Traces

end Settings

/-! ## Events of set-ups and runs -/

section Series

variable {Op : Type} [Operator Op]

/-- The events of a series of set-ups: one for each step before the first that fails. -/
def setupEvents (settings : Settings) (values : List Value) (steps : List (Step Op)) :
    List TraceEvent :=
  (steps.takeWhile fun step => (step.setUpOutcome values).isOk).map fun step =>
    .ofNode .setup step.node settings.timer

/-- The steps of a series of runs before the first that fails. -/
def finishedSteps (values : List Value) (schedule : Schedule) :
    List (Step Op) → BlobTable → List (Step Op)
  | [], _ => []
  | step :: rest, blobs =>
      let done := runStep values schedule step blobs
      if done.2.isOk then step :: finishedSteps values schedule rest done.1 else []

/-- The events of a series of runs: one for each step before the first that fails. -/
def runEvents (values : List Value) (schedule : Schedule) (steps : List (Step Op))
    (blobs : BlobTable) : List TraceEvent :=
  (finishedSteps values schedule steps blobs).map fun step => .ofNode .execute step.node true

variable {settings : Settings} {values : List Value} {log trace : List TraceEvent}

/-- A series of set-ups records the event of a step that it sets up and goes on. -/
theorem setUpSteps_cons_trace (settings : Settings) (values : List Value) (step : Step Op)
    (steps : List (Step Op)) (trace : List TraceEvent) :
    (setUpSteps settings values (step :: steps) trace).trace =
      match step.setUpOutcome values with
      | .ok () =>
          (setUpSteps settings values steps
            (settings.record trace (.ofNode .setup step.node settings.timer))).trace
      | .error _ => trace := by
  unfold Step.setUpOutcome
  rw [setUpSteps]
  cases operandShapes values step.node with
  | error fault => rfl
  | ok shapes =>
      show _ = match (Operator.setup step.operator shapes.1 shapes.2).2 with
        | .ok () => _
        | .error _ => trace
      dsimp only
      cases (Operator.setup step.operator shapes.1 shapes.2).2 with
      | error fault => rfl
      | ok done => rfl

/-- A series of set-ups records its events. -/
theorem setUpSteps_traces {steps : List (Step Op)} (traces : settings.Traces log trace) :
    settings.Traces (log ++ setupEvents settings values steps)
      (setUpSteps settings values steps trace).trace := by
  induction steps generalizing log trace with
  | nil => exact traces.quiet
  | cons step steps inductionHypothesis =>
      rw [setUpSteps_cons_trace, setupEvents, List.takeWhile_cons]
      cases step.setUpOutcome values with
      | error fault => exact traces.quiet
      | ok done =>
          show settings.Traces (log ++ (_ :: setupEvents settings values steps)) _
          rw [List.append_cons]
          exact inductionHypothesis (traces.record _)

/-- A series of runs records its events. -/
theorem runSteps_traces {schedule : Schedule} {steps : List (Step Op)} {blobs : BlobTable}
    (traces : settings.Traces log trace) :
    settings.Traces (log ++ runEvents values schedule steps blobs)
      (runSteps settings values schedule steps blobs trace).trace := by
  induction steps generalizing log trace blobs with
  | nil => exact traces.quiet
  | cons step steps inductionHypothesis =>
      unfold runEvents finishedSteps runSteps
      cases runStep values schedule step blobs with
      | mk middle outcome =>
          cases outcome with
          | error fault => exact traces.quiet
          | ok done =>
              show settings.Traces (log ++ (_ :: runEvents values schedule steps middle)) _
              rw [List.append_cons]
              exact inductionHypothesis (traces.record _)

/-- The trace after a set-up: no operator is set up unless all blobs are correct. -/
theorem Executable.Executes.setup_trace {executable : Executable Op} {graph : Graph}
    (executes : executable.Executes graph) (wellFormed : graph.WellFormed) (blobs : BlobTable) :
    (executable.setup blobs).result.1.trace =
      if executable.BindsAll blobs then
        (setUpSteps executable.settings executable.values executable.steps executable.trace).trace
      else executable.trace := by
  have checks := executes.checks_iff wellFormed blobs
  unfold Executable.setup
  rw [Executable.forM_checkOperands (executes.operands_found wellFormed)]
  dsimp only
  cases checked : executable.operandIds.forM (checkBound executable.values blobs) with
  | error fault =>
      rw [checked] at checks
      rw [if_neg fun binds => nomatch checks.mpr binds]
  | ok passed => rw [if_pos (checks.mp checked)]

end Series

/-! ## Logs of calls -/

section Calls

variable {Op : Type}

/-- A compilation records one event for each node, in the order of the nodes. -/
theorem compile_records (catalog : Catalog Op) (graph : Graph) (settings : Settings) :
    (compile catalog graph settings).Ends
      (fun made => made.1.trace = creationTrace settings graph.nodes) (fun _ => True) := by
  unfold compile
  extract_lets rest
  have records : ∀ checked, (rest checked).Ends
      (fun made => made.1.trace = creationTrace settings graph.nodes) (fun _ => True) := by
    intro checked
    refine (Ends.somehow _).bind fun steps _ => ?_
    refine (Ends.somehow _).bind fun _ _ => ?_
    exact (Ends.somehow _).bind fun workshop _ => Ends.pure rfl
  split
  · exact (Ends.somehow _).bind fun _ _ => records ()
  · exact records ()

def creationEvents (settings : Settings) (nodes : List Node) : List TraceEvent :=
  nodes.map fun node => .ofNode .create node settings.timer

/-- The creation of operators records its events. -/
theorem creationTrace_traces (settings : Settings) (nodes : List Node) :
    settings.Traces (creationEvents settings nodes) (creationTrace settings nodes) := by
  have traces := (Settings.Traces.empty settings).recordAll (creationEvents settings nodes)
  unfold creationEvents at traces
  rw [List.nil_append, List.foldl_map] at traces
  exact traces

namespace Engine

variable [Operator Op]

/-- The events of a call. A set-up has none if it refuses a blob, nor has a run without a binding or
after a failure. -/
def callEvents (engine : Engine Op) : EngineCall → List TraceEvent
  | .setup blobs =>
      if engine.executable.BindsAll blobs then
        setupEvents engine.executable.settings engine.executable.values engine.executable.steps
      else []
  | .run schedule =>
      match engine.binding with
      | none => []
      | some blobs =>
          if engine.executable.state = .failed then []
          else runEvents engine.executable.values schedule engine.executable.steps blobs
  | .reshape _ _ | .overwrite _ _ | .release | .clearTrace => []

/-- The log of all events after a call, since the trace was last emptied. -/
def logCall (engine : Engine Op) (log : List TraceEvent) (call : EngineCall) : List TraceEvent :=
  match call with
  | .clearTrace => []
  | call => log ++ engine.callEvents call

/-- The log of all events after a sequence of calls, since the trace was last emptied. -/
def logAfter (engine : Engine Op) (log : List TraceEvent) : List EngineCall → List TraceEvent
  | [] => log
  | call :: calls => (engine.after call).logAfter (engine.logCall log call) calls

/-- What calls keep of an engine for a graph beside its log: the trace is the newest part. -/
structure Logged (graph : Graph) (settings : Settings) (log : List TraceEvent)
    (engine : Engine Op) : Prop where
  executes : engine.executable.Executes graph
  settings_eq : engine.executable.settings = settings
  traces : settings.Traces log engine.executable.trace

namespace Logged

variable {graph : Graph} {settings : Settings} {log : List TraceEvent} {engine : Engine Op}

/-- A call after which settings and trace are as they were has no events. -/
theorem unchanged (logged : engine.Logged graph settings log) (wellFormed : graph.WellFormed)
    {call : EngineCall}
    (sameSettings : (engine.after call).executable.settings = engine.executable.settings)
    (sameTrace : (engine.after call).executable.trace = engine.executable.trace) :
    (engine.after call).Logged graph settings (log ++ []) where
  executes := executes_afterCalls wellFormed logged.executes [call]
  settings_eq := sameSettings.trans logged.settings_eq
  traces := by
    rw [sameTrace]
    exact logged.traces.quiet

/-- A call adds its events to the log. -/
theorem after (logged : engine.Logged graph settings log) (wellFormed : graph.WellFormed)
    (call : EngineCall) : (engine.after call).Logged graph settings (engine.logCall log call) := by
  have executes : (engine.after call).executable.Executes graph :=
    executes_afterCalls wellFormed logged.executes [call]
  cases call with
  | reshape id shape =>
      have same : (engine.after (.reshape id shape)).executable =
          (engine.executable.reshape id shape).result.1 := rfl
      cases ran : engine.executable.reshaped id shape with
      | error fault =>
          rw [Executable.reshape_of_error ran] at same
          exact logged.unchanged wellFormed (congrArg _ same) (congrArg _ same)
      | ok shapes =>
          rw [Executable.reshape_of_ok ran] at same
          exact logged.unchanged wellFormed (by rw [same]) (by rw [same])
  | setup blobs =>
      have trace : (engine.after (.setup blobs)).executable.trace = _ :=
        logged.executes.setup_trace wellFormed blobs
      refine ⟨executes, logged.settings_eq, ?_⟩
      show settings.Traces (log ++ engine.callEvents (.setup blobs)) _
      rw [trace, callEvents]
      split
      · rw [logged.settings_eq]
        exact setUpSteps_traces logged.traces
      · exact logged.traces.quiet
  | run schedule =>
      obtain ⟨trace, state, same⟩ := engine.after_run schedule
      have sameSettings : (engine.after (.run schedule)).executable.settings = settings := by
        rw [same]
        exact logged.settings_eq
      refine ⟨executes, sameSettings, ?_⟩
      show settings.Traces (log ++ engine.callEvents (.run schedule)) _
      unfold callEvents Engine.after perform onBinding
      cases engine.binding with
      | none => exact logged.traces.quiet
      | some blobs =>
          dsimp only
          split
          · rename_i failed
            rw [Bound.run_of_failed failed]
            exact logged.traces.quiet
          · rename_i live
            rw [Bound.run_of_live live]
            dsimp only
            rw [logged.settings_eq]
            exact runSteps_traces logged.traces
  | overwrite id bytes =>
      have same := engine.after_overwrite id bytes
      exact logged.unchanged wellFormed (congrArg _ same) (congrArg _ same)
  | release => exact logged.unchanged wellFormed rfl rfl
  | clearTrace => exact ⟨executes, logged.settings_eq, .empty settings⟩

/-- Calls add their events to the log. -/
theorem afterCalls (logged : engine.Logged graph settings log) (wellFormed : graph.WellFormed)
    (calls : List EngineCall) :
    (engine.afterCalls calls).Logged graph settings (engine.logAfter log calls) := by
  induction calls generalizing engine log with
  | nil => exact logged
  | cons call calls inductionHypothesis =>
      exact inductionHypothesis (logged.after wellFormed call)

end Logged

end Engine

/-- The trace of a compiled graph is the newest part of the log of its events.

The graph has been built by any calls and compiled with any catalog, whose operators may fail at any
set-up or run, and any calls have been made since. There is one operator for each node, in the order
of the nodes. The log begins with their creations, goes on with the events of each call, and begins
anew when the trace is emptied. If events are recorded, then the trace is the end of the log: as
many events as are kept, but one at least, or all if the log has no more. Else it is empty. -/
theorem trace_is_newest_window {Op : Type} [Operator Op] (catalog : Catalog Op) (count : Nat)
    (calls : List BuildCall) (settings : Settings) (workshop : Workshop)
    (executable : Executable Op) (closed : Graph)
    (compiled : (compile catalog ((Graph.withExternalValues count).afterCalls calls) settings
      workshop).1 = .ok (executable, closed))
    (history : List EngineCall) :
    let graph := (Graph.withExternalValues count).afterCalls calls
    let log := (Engine.start executable).logAfter (creationEvents settings graph.nodes) history
    let current := ((Engine.start executable).afterCalls history).executable
    current.steps.map (·.node) = graph.nodes ∧
      (settings.trace = true → current.trace <:+ log ∧
        current.trace.length = min (max settings.traceLimit 1) log.length) ∧
      (settings.trace = false → current.trace = []) := by
  intro graph log current
  have wellFormed : graph.WellFormed := Graph.wellFormed_afterCalls count calls
  have assembled : Assembled graph settings executable := Assembled.of_compiled compiled
  have recorded : executable.trace = creationTrace settings graph.nodes :=
    (compile_records catalog graph settings).of_ok (Prod.ext compiled rfl)
  have start : (Engine.start executable).Logged graph settings
      (creationEvents settings graph.nodes) := by
    refine ⟨assembled.executes (Graph.admitted_afterCalls count calls), assembled.settings_eq, ?_⟩
    show settings.Traces _ executable.trace
    rw [recorded]
    exact creationTrace_traces settings graph.nodes
  have logged := start.afterCalls wellFormed history
  have traces : settings.Traces log current.trace := logged.traces
  refine ⟨logged.executes.nodes_eq, fun traced => ?_, fun untraced => ?_⟩
  · unfold Settings.Traces at traces
    rwa [if_pos traced] at traces
  · unfold Settings.Traces at traces
    rwa [if_neg (by simp [untraced])] at traces

/-- The theorem applies to the staged graph when three events are kept and the second operator fails
in the run: the newest events are two set-ups and the one run before, and the second run, which is
refused, has none. -/
theorem trace_is_newest_window_staged :
    let settings : Settings := { trace := true, traceLimit := 3 }
    let nodes := ((Graph.withExternalValues 2).afterCalls stagedGraph).nodes
    let executable : Executable ScriptedOperator :=
      { stagedExecutable ⟨.abs, 7, false, false⟩ ⟨.negate, 9, false, true⟩ with
        settings := settings
        trace := creationTrace settings nodes }
    let history : List EngineCall := [.setup stagedBlobs, .run .sequential, .run .sequential]
    let log := (Engine.start executable).logAfter (creationEvents settings nodes) history
    let trace := ((Engine.start executable).afterCalls history).executable.trace
    trace <:+ log ∧ trace.length = 3 ∧
      log.map (fun event => (event.phase, event.node)) =
        [(.create, 0), (.create, 1), (.create, 2), (.setup, 0), (.setup, 1), (.setup, 2),
          (.execute, 0)] := by
  intro settings nodes executable history log trace
  have compiled : (compile (ScriptedOperator.catalog [⟨.abs, 7, false, false⟩,
      ⟨.negate, 9, false, true⟩]) ((Graph.withExternalValues 2).afterCalls stagedGraph) settings
        {}).1 = .ok (executable, ((Graph.withExternalValues 2).afterCalls stagedGraph).closed) := by
    cbv
  obtain ⟨_, newest, _⟩ :=
    trace_is_newest_window _ 2 stagedGraph settings {} executable _ compiled history
  obtain ⟨suffix, kept⟩ := newest rfl
  have events : log.map (fun event => (event.phase, event.node)) = [(.create, 0), (.create, 1),
      (.create, 2), (.setup, 0), (.setup, 1), (.setup, 2), (.execute, 0)] := by
    decide +kernel
  refine ⟨suffix, ?_, events⟩
  have total : log.length = 7 := by
    simpa using congrArg List.length events
  exact kept.trans (congrArg (min 3) total)

end Calls

end TensorEngine
