import TensorEngine.Execution.Run
import TensorEngine.Proofs.Execution.Compilation
import TensorEngine.Proofs.Execution.Reshape

/-!
Contract: the life of a compiled graph, call by call.

Owns:
- `Step.SetUp`, an operator that is set up for the current shapes, and when a set-up succeeds;
- `Session`, a compiled graph with the blobs it is bound to, and `Session.afterCalls`;
- `Session.Sound`, what every sequence of calls keeps: the nodes, the operators as they were made,
  and, while the session is bound, operators that are set up for the current shapes.

Does not own: what a run leaves in the blobs.
-/

namespace TensorEngine

/-! ## Set-up -/

section SetUp

variable {Op : Type} [Operator Op] {settings : Settings} {values : List Value}

/-- A step whose operator has been set up for the shapes of these values. -/
def Step.SetUp (values : List Value) (before after : Step Op) : Prop :=
  after.node = before.node ∧ ∃ inputs output,
    operandShapes values before.node = .ok (inputs, output) ∧
      Operator.setup before.operator inputs output = (after.operator, .ok ())

/-- A series of set-ups succeeds exactly when each of them does. -/
theorem setUpSteps_eq_ok_iff {steps news : List (Step Op)} {trace : List TraceEvent} :
    ((setUpSteps settings values steps trace).outcome = .ok () ∧
      (setUpSteps settings values steps trace).steps = news) ↔
      List.Forall₂ (Step.SetUp values) steps news := by
  induction steps generalizing trace news with
  | nil =>
      unfold setUpSteps
      simp [eq_comm]
  | cons step steps inductionHypothesis =>
      unfold setUpSteps
      cases found : operandShapes values step.node with
      | error fault =>
          constructor
          · rintro ⟨failed, _⟩
            cases failed
          · rintro (_ | ⟨⟨_, _, _, shapes, _⟩, _⟩)
            rw [found] at shapes
            cases shapes
      | ok shapes =>
          obtain ⟨inputs, output⟩ := shapes
          dsimp only
          cases done : Operator.setup step.operator inputs output with
          | mk operator outcome =>
              cases outcome with
              | error fault =>
                  constructor
                  · rintro ⟨failed, _⟩
                    cases failed
                  · rintro (_ | ⟨⟨_, _, _, shapes, ready⟩, _⟩)
                    cases found.symm.trans shapes
                    rw [done] at ready
                    cases ready
              | ok finished =>
                  constructor
                  · rintro ⟨succeeded, rfl⟩
                    exact .cons ⟨rfl, inputs, output, found, done⟩
                      (inductionHypothesis.mp ⟨succeeded, rfl⟩)
                  · rintro (_ | ⟨⟨sameNode, _, _, shapes, ready⟩, rest⟩)
                    cases found.symm.trans shapes
                    obtain ⟨sameOperator, _⟩ := Prod.mk.inj (done.symm.trans ready)
                    obtain ⟨succeeded, sameSteps⟩ := inductionHypothesis.mpr rest
                    refine ⟨succeeded, ?_⟩
                    dsimp only
                    rw [sameSteps, sameOperator, ← sameNode]

/-- The parts of a successful set-up of an executable. -/
theorem setup_eq_ok_iff {executable after : Executable Op} {blobs : BlobTable} :
    (executable.setup blobs).result = (after, .ok ()) ↔
      (executable.steps.map (·.node)).forM (checkOperands executable.values blobs) = .ok () ∧
        List.Forall₂ (Step.SetUp executable.values) executable.steps after.steps ∧
        after = { executable with
          steps := after.steps
          trace := (setUpSteps executable.settings executable.values executable.steps
            executable.trace).trace
          state := .bound } := by
  unfold Executable.setup
  dsimp only
  cases checked : (executable.steps.map (·.node)).forM (checkOperands executable.values blobs) with
  | error fault => simp
  | ok passed =>
      rw [← setUpSteps_eq_ok_iff]
      dsimp only
      constructor
      · intro same
        obtain ⟨rfl, succeeded⟩ := Prod.mk.inj same
        refine ⟨rfl, ⟨succeeded, rfl⟩, ?_⟩
        dsimp only
        rw [succeeded]
        rfl
      · rintro ⟨_, ⟨succeeded, sameSteps⟩, same⟩
        rw [same, succeeded, sameSteps]
        rfl

end SetUp

/-! ## What no call changes of a step -/

theorem forall₂_compose {α β γ : Type} {early : α → β → Prop} {late : β → γ → Prop}
    {whole : α → γ → Prop} {firsts : List α} {seconds : List β} {thirds : List γ}
    (before : List.Forall₂ early firsts seconds) (after : List.Forall₂ late seconds thirds)
    (compose : ∀ {first second third}, early first second → late second third →
      whole first third) : List.Forall₂ whole firsts thirds := by
  induction before generalizing thirds with
  | nil =>
      cases after
      exact .nil
  | cons head _ inductionHypothesis =>
      cases after with
      | cons headAfter rest => exact .cons (compose head headAfter) (inductionHypothesis rest)

/-- A step with the same node, and with the operator that was made for it, set up or not. -/
structure Step.Stays (before after : Step StandardOperator) : Prop where
  node_eq : after.node = before.node
  blank_eq : after.operator.blank = before.operator.blank

namespace Step.Stays

theorem refl (step : Step StandardOperator) : step.Stays step := ⟨rfl, rfl⟩

theorem trans {first second third : Step StandardOperator} (early : first.Stays second)
    (late : second.Stays third) : first.Stays third :=
  ⟨late.node_eq.trans early.node_eq, late.blank_eq.trans early.blank_eq⟩

theorem nodes_eq {befores afters : List (Step StandardOperator)}
    (stay : List.Forall₂ Step.Stays befores afters) :
    afters.map (·.node) = befores.map (·.node) := by
  induction stay with
  | nil => rfl
  | cons head _ inductionHypothesis =>
      rw [List.map_cons, List.map_cons, head.node_eq, inductionHypothesis]

/-- A set-up succeeds on an operator that another set-up has been through exactly when it succeeds
on the operator as it was made, and with the same state. -/
theorem setUp {made step after : Step StandardOperator} (stays : made.Stays step)
    (blank : made.operator.blank = made.operator) {values : List Value} :
    Step.SetUp values step after ↔ Step.SetUp values made after := by
  have same : step.operator.blank = made.operator := stays.blank_eq.trans blank
  unfold Step.SetUp
  rw [stays.node_eq]
  refine and_congr_right fun _ => exists_congr fun inputs => exists_congr fun output =>
    and_congr_right fun _ => ?_
  obtain ⟨_, sameOutcome, sameState⟩ := step.operator.setup_blank inputs output
  rw [same] at sameOutcome sameState
  show step.operator.setup inputs output = _ ↔ made.operator.setup inputs output = _
  rw [Prod.ext_iff, Prod.ext_iff, sameOutcome]
  constructor
  · rintro ⟨state, outcome⟩
    exact ⟨(sameState outcome).trans state, outcome⟩
  · rintro ⟨state, outcome⟩
    exact ⟨(sameState outcome).symm.trans state, outcome⟩

end Step.Stays

/-- A series of set-ups, finished or not, changes nothing but the state for the shapes. -/
theorem setUpSteps_stays (settings : Settings) (values : List Value)
    (steps : List (Step StandardOperator)) (trace : List TraceEvent) :
    List.Forall₂ Step.Stays steps (setUpSteps settings values steps trace).steps := by
  induction steps generalizing trace with
  | nil => exact .nil
  | cons step steps inductionHypothesis =>
      have rest : List.Forall₂ Step.Stays steps steps :=
        List.forall₂_same.mpr fun step _ => .refl step
      unfold setUpSteps
      cases operandShapes values step.node with
      | error fault => exact .cons (.refl step) rest
      | ok shapes =>
          have blank := (step.operator.setup_blank shapes.1 shapes.2).1
          change (Operator.setup step.operator shapes.1 shapes.2).1.blank = _ at blank
          dsimp only
          cases done : Operator.setup step.operator shapes.1 shapes.2 with
          | mk operator outcome =>
              rw [done] at blank
              cases outcome with
              | error fault => exact .cons ⟨rfl, blank⟩ rest
              | ok finished => exact .cons ⟨rfl, blank⟩ (inductionHypothesis _)

/-! ## Sessions -/

/-- A call on a compiled graph, or on the blobs that it is bound to. -/
inductive SessionCall where
  | reshape (id : ValueId) (shape : Shape)
  | setup (blobs : BlobTable)
  | run (schedule : Schedule)
  | overwrite (id : ValueId) (bytes : Bytes)

/-- A compiled graph, and the blobs that it is bound to after a set-up. -/
structure Session where
  executable : Executable StandardOperator
  bound : Option BlobTable

namespace Session

/-- A compiled graph before any call. -/
def start (executable : Executable StandardOperator) : Session := ⟨executable, none⟩

/-- The session after a call on its bound blobs. Without them nothing happens. -/
def afterBound (session : Session)
    (call : Bound StandardOperator → Bound StandardOperator) : Session :=
  match session.bound with
  | none => session
  | some blobs =>
      let done := call ⟨session.executable, blobs⟩
      ⟨done.executable, some done.blobs⟩

/-- The session after a set-up for these blobs, which binds them if it has succeeded. -/
def afterSetup (blobs : BlobTable) (done : Executable StandardOperator × Outcome Unit) :
    Session :=
  match done.2 with
  | .ok () => ⟨done.1, some blobs⟩
  | .error _ => start done.1

/-- The session after a call. A reshape and a failed set-up end the binding, a failed run does
not. -/
def after (session : Session) (call : SessionCall) : Session :=
  match call with
  | .reshape id shape => start (session.executable.reshape id shape).result.1
  | .setup blobs =>
      afterSetup blobs (session.executable.setup blobs).result
  | .run schedule => session.afterBound fun binding => (binding.run schedule).result.1
  | .overwrite id bytes =>
      session.afterBound fun binding =>
        match binding.overwrite UInt8 id bytes with
        | .ok (written, _) => written
        | .error _ => binding

def afterCalls (session : Session) (calls : List SessionCall) : Session :=
  calls.foldl after session

/-- What every sequence of calls keeps of a compiled graph. -/
structure Sound (graph : Graph) (compiled : Executable StandardOperator) (session : Session) :
    Prop where
  executes : session.executable.Executes graph
  settings_eq : session.executable.settings = compiled.settings
  steps : List.Forall₂ Step.Stays compiled.steps session.executable.steps
  ready : session.bound.isSome = true →
    List.Forall₂ (Step.SetUp session.executable.values) compiled.steps session.executable.steps

end Session

/-- An executable for a graph stays one while its values and nodes stay. -/
theorem Executable.Executes.congr {Op : Type} {executable other : Executable Op} {graph : Graph}
    (executes : executable.Executes graph) (sameValues : other.values = executable.values)
    (sameNodes : other.steps.map (·.node) = executable.steps.map (·.node)) :
    other.Executes graph where
  nodes_eq := sameNodes.trans executes.nodes_eq
  table := by
    rw [sameValues]
    exact executes.table
  follow := by
    unfold Executable.shapes
    rw [sameValues]
    exact executes.follow

/-- A set-up keeps values and settings, and the steps up to the state of their operators. -/
theorem Executable.setup_stays (executable : Executable StandardOperator) (blobs : BlobTable) :
    let after := (executable.setup blobs).result.1
    after.values = executable.values ∧ after.settings = executable.settings ∧
      List.Forall₂ Step.Stays executable.steps after.steps := by
  unfold Executable.setup
  dsimp only
  refine ⟨rfl, rfl, ?_⟩
  cases (executable.steps.map (·.node)).forM (checkOperands executable.values blobs) with
  | error fault => exact List.forall₂_same.mpr fun step _ => .refl step
  | ok passed => exact setUpSteps_stays _ _ _ _

theorem Bound.overwrite_executable {Op : Type} {binding written : Bound Op} {id : Nat}
    {bytes : Bytes} {count : Nat}
    (ran : binding.overwrite UInt8 id bytes = .ok (written, count)) :
    written.executable = binding.executable := by
  unfold Bound.overwrite at ran
  split at ran
  · cases ran
  · split at ran
    · cases ran
    · obtain ⟨_, _, same⟩ := bind_eq_ok_iff.mp ran
      cases same
      rfl

namespace Session.Sound

variable {graph : Graph} {compiled : Executable StandardOperator} {session : Session}

/-- A call on bound blobs that keeps the executable but for its state keeps the session sound. -/
theorem afterBound (sound : session.Sound graph compiled)
    {call : Bound StandardOperator → Bound StandardOperator}
    (keeps : ∀ binding, (call binding).executable.values = binding.executable.values ∧
      (call binding).executable.settings = binding.executable.settings ∧
      (call binding).executable.steps = binding.executable.steps) :
    (session.afterBound call).Sound graph compiled := by
  unfold Session.afterBound
  split
  · exact sound
  · rename_i blobs bound
    obtain ⟨sameValues, sameSettings, sameSteps⟩ := keeps ⟨session.executable, blobs⟩
    refine ⟨sound.executes.congr sameValues (congrArg _ sameSteps),
      sameSettings.trans sound.settings_eq, ?_, fun _ => ?_⟩
    · dsimp only
      rw [sameSteps]
      exact sound.steps
    · dsimp only
      rw [sameSteps, sameValues]
      exact sound.ready (by rw [bound]; rfl)

theorem after (sound : session.Sound graph compiled) (wellFormed : graph.WellFormed)
    (blank : ∀ made ∈ compiled.steps, made.operator.blank = made.operator) (call : SessionCall) :
    (session.after call).Sound graph compiled := by
  cases call with
  | reshape id shape =>
      obtain ⟨executes, sameSteps⟩ := sound.executes.reshape wellFormed id shape
      refine ⟨executes, ?_, ?_, fun bound => (nomatch bound)⟩
      · rw [← sound.settings_eq]
        unfold Session.after Session.start Executable.reshape
        dsimp only
        split <;> rfl
      · show List.Forall₂ Step.Stays _ (session.executable.reshape id shape).result.1.steps
        rw [sameSteps]
        exact sound.steps
  | setup blobs =>
      obtain ⟨sameValues, sameSettings, stay⟩ := session.executable.setup_stays blobs
      have executes := sound.executes.congr sameValues (Step.Stays.nodes_eq stay)
      have steps := forall₂_compose sound.steps stay Step.Stays.trans
      show (afterSetup blobs (session.executable.setup blobs).result).Sound graph compiled
      cases ran : (session.executable.setup blobs).result with
      | mk executable outcome =>
          rw [ran] at sameValues sameSettings executes steps
          have settings := sameSettings.trans sound.settings_eq
          cases outcome with
          | error fault => exact ⟨executes, settings, steps, fun bound => (nomatch bound)⟩
          | ok done =>
              refine ⟨executes, settings, steps, fun _ => ?_⟩
              obtain ⟨_, ready, _⟩ := setup_eq_ok_iff.mp ran
              have stayBlank := (List.forall₂_and_left _ _).mpr ⟨blank, sound.steps⟩
              rw [← sameValues] at ready
              exact forall₂_compose stayBlank ready fun stays done =>
                (stays.2.setUp stays.1).mp done
  | run schedule =>
      unfold Session.after
      apply sound.afterBound
      intro binding
      unfold Bound.run
      dsimp only
      split
      · exact ⟨rfl, rfl, rfl⟩
      · exact ⟨rfl, rfl, rfl⟩
  | overwrite id bytes =>
      unfold Session.after
      apply sound.afterBound
      intro binding
      split
      · rename_i written _ ran
        rw [Bound.overwrite_executable ran]
        exact ⟨rfl, rfl, rfl⟩
      · exact ⟨rfl, rfl, rfl⟩

/-- Every sequence of calls keeps a session sound. -/
theorem afterCalls (sound : session.Sound graph compiled) (wellFormed : graph.WellFormed)
    (blank : ∀ made ∈ compiled.steps, made.operator.blank = made.operator)
    (calls : List SessionCall) : (session.afterCalls calls).Sound graph compiled := by
  induction calls generalizing session with
  | nil => exact sound
  | cons call calls inductionHypothesis =>
      exact inductionHypothesis (sound.after wellFormed blank call)

end Session.Sound

theorem Compiled.sound {graph : Graph} {settings : Settings}
    {executable : Executable StandardOperator} (compiled : Compiled graph settings executable)
    (admitted : graph.Admitted) : (Session.start executable).Sound graph executable where
  executes := by
    refine ⟨nodes_of_made compiled.steps, ?_, ?_⟩
    · rw [← compiled.values_eq]
      exact .refl _
    · intro node listed
      obtain ⟨operands, output, admittedNode⟩ := admitted node listed
      rw [← compiled.values_eq] at admittedNode
      exact admittedNode.shapesFollow
  settings_eq := rfl
  steps := List.forall₂_same.mpr fun step _ => .refl step
  ready := fun bound => (nomatch bound)

end TensorEngine
