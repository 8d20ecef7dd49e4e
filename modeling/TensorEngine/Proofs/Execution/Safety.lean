import TensorEngine.Proofs.Execution.Lending
import TensorEngine.Proofs.Kernel.SoundCreation
import TensorEngine.Proofs.Kernel.WholeWeights

/-!
Contract: runs after a successful set-up.

Owns:
- `Executable.SizesFit` and `Executable.AlignsEmpty`, the sizes of the values of a compiled graph
  and the alignment of blobs that have to hold nothing;
- `CompileJob.MadeSoundly`, a compiled graph of sound operators, which every compilation gives;
- `Session.Guarded`, what calls keep of bound blobs while sizes fit;
- the theorem that no run after a set-up breaks an internal contract;
- the theorem that every run on aligned blobs succeeds, and an empty blob on which a run fails.

Does not own: what a run leaves in the blobs.
-/

namespace TensorEngine

open Making TensorEngine.Numeric

/-! ## Sizes and alignment -/

namespace Executable

variable {Op : Type}

/-- The byte counts of all values fit words of 63 bits, and so does 255 times the area of the
images of every pooling. -/
structure SizesFit (executable : Executable Op) : Prop where
  bytes : ∀ value ∈ executable.values, value.byteCount < 2 ^ 63
  areas : ∀ step ∈ executable.steps, step.node.kind = .globalAveragePooling2d →
    ∀ id ∈ step.node.inputs, ∀ value ∈ executable.values[id]?, 255 * value.shape.area < 2 ^ 63

instance (executable : Executable Op) : Decidable executable.SizesFit :=
  decidable_of_iff
    ((∀ value ∈ executable.values, value.byteCount < 2 ^ 63) ∧
      ∀ step ∈ executable.steps, step.node.kind = .globalAveragePooling2d →
        ∀ id ∈ step.node.inputs, ∀ value ∈ executable.values[id]?,
          255 * value.shape.area < 2 ^ 63)
    ⟨fun ⟨bytes, areas⟩ => ⟨bytes, areas⟩, fun fit => ⟨fit.bytes, fit.areas⟩⟩

/-- The blobs of all operands that have to hold nothing are aligned all the same. -/
def AlignsEmpty (executable : Executable Op) (blobs : BlobTable) : Prop :=
  ∀ id ∈ executable.operandIds, ∀ value ∈ executable.values[id]?, value.Placed (blobs.get? id)

instance (value : Value) (bound : Option Blob) : Decidable (value.Placed bound) :=
  decidable_of_iff (value.isStatic = false → value.byteCount = 0 → ∀ blob ∈ bound,
    blob.buffer.address % value.element.width = 0) Iff.rfl

instance (executable : Executable Op) (blobs : BlobTable) :
    Decidable (executable.AlignsEmpty blobs) :=
  inferInstanceAs (Decidable (∀ id ∈ executable.operandIds, ∀ value ∈ executable.values[id]?,
    value.Placed (blobs.get? id)))

structure SameDemands (after before : Executable Op) : Prop where
  values_eq : after.values = before.values
  nodes_eq : after.steps.map (·.node) = before.steps.map (·.node)

namespace SameDemands

variable {after before : Executable Op} (same : after.SameDemands before)

include same

theorem operandIds_eq : after.operandIds = before.operandIds := by
  unfold operandIds
  rw [same.nodes_eq]

theorem bindsAll {blobs others : BlobTable} (rooms : others.SameRooms blobs)
    (binds : before.BindsAll blobs) : after.BindsAll others := by
  intro id used
  rw [same.operandIds_eq] at used
  obtain ⟨value, found, bound⟩ := binds id used
  exact ⟨value, by rw [same.values_eq]; exact found, bound.congr (rooms id)⟩

theorem alignsEmpty {blobs others : BlobTable} (rooms : others.SameRooms blobs)
    (aligned : before.AlignsEmpty blobs) : after.AlignsEmpty others := by
  intro id used value found
  rw [same.operandIds_eq] at used
  rw [same.values_eq] at found
  exact (aligned id used value found).congr (rooms id)

theorem sizesFit (sized : before.SizesFit) : after.SizesFit where
  bytes := by
    rw [same.values_eq]
    exact sized.bytes
  areas := by
    intro step listed pool id read value found
    have among : step.node ∈ before.steps.map (·.node) := by
      rw [← same.nodes_eq]
      exact List.mem_map_of_mem listed
    obtain ⟨other, listedOther, sameNode⟩ := List.mem_map.mp among
    rw [same.values_eq] at found
    rw [← sameNode] at pool read
    exact sized.areas other listedOther pool id read value found

end SameDemands

theorem SameDemands.refl (executable : Executable Op) : executable.SameDemands executable :=
  ⟨rfl, rfl⟩

theorem SameDemands.symm {after before : Executable Op} (same : after.SameDemands before) :
    before.SameDemands after := ⟨same.values_eq.symm, same.nodes_eq.symm⟩

end Executable

/-! ## Sound operators -/

/-- A compiled graph of sound operators, which read operands of the storage type of their node. -/
structure CompileJob.MadeSoundly (job : CompileJob) (executable : Executable StandardOperator) :
    Prop where
  compiled : Compiled job.graph job.settings executable
  sound : ∀ step ∈ executable.steps, step.operator.Sound
  width_eq : ∀ step ∈ executable.steps,
    step.operator.operandWidth = step.node.compute.operandWidth

namespace CompileJob

/-- A compilation with a cache of packed weights that was empty before earlier compilations makes
sound operators. -/
theorem madeSoundly {start : Workshop} (fresh : start.HoldsNoWeights) {earlier : List CompileJob}
    {job : CompileJob} {executable : Executable StandardOperator} {closed : Graph}
    (ran : (job.run (start.afterJobs earlier)).1 = .ok (executable, closed)) :
    job.MadeSoundly executable := by
  have empty : PackedByKey start.packing := by
    intro cache present key artifact found
    rw [fresh.peek?_eq present] at found
    cases found
  have packs := fun (other : CompileJob) (workshop : Workshop) =>
    @compile_keeps (fun packing _ => PackedByKey packing)
      (fun _ operator => operator.SoundWeights) other.features
      other.settings other.graph (fun _ _ _ offers => offers.soundWeights)
      { workshop with code := other.tables }
  have byKey := @Workshop.afterJobs_keeps PackedByKey earlier
    (fun other _ workshop kept => (packs other workshop kept).1) start empty
  have weights := (packs job _ byKey).2 _ ran
  have bodies := CompileJob.ensures ran fun _ _ _ _ admits offers => offers.sound admits
  exact ⟨compiled ran, fun step listed => ⟨(bodies step listed).body, weights step listed⟩,
    fun step listed => (bodies step listed).width_eq⟩

variable {job : CompileJob} {executable : Executable StandardOperator} {session : Session}

/-- While sizes fit, every step of a session that is set up is capable. -/
theorem MadeSoundly.capable (made : job.MadeSoundly executable)
    (sound : session.Sound job.graph executable) (bound : session.bound.isSome = true)
    (sized : session.executable.SizesFit) :
    ∀ step ∈ session.executable.steps,
      ∃ output value, step.Capable session.executable.values output value := by
  intro step listed
  have wellFormed := Graph.wellFormed_afterCalls job.externalCount job.calls
  obtain ⟨output, value, fills⟩ := sound.fills wellFormed (Graph.admitted_afterCalls _ _)
    made.compiled bound step listed
  obtain ⟨before, among, sameNode, inputShapes, shape, shapes, ready⟩ :=
    exists_of_forall₂_right (sound.ready bound) listed
  obtain ⟨operands, result, admitted⟩ := Made.admitted sound listed
  rw [← sameNode, admitted.operandShapes_eq, Except.ok.injEq, Prod.mk.injEq] at shapes
  obtain ⟨rfl, rfl⟩ := shapes
  have width := made.width_eq before among
  have madeFor := operators_of_made made.compiled.steps before among
  rw [← sameNode] at width madeFor
  have written : result = value := by
    obtain ⟨place, outputs, found⟩ := admitted.written
    rw [fills.outputs_eq, List.cons.injEq, and_iff_left rfl] at outputs
    rw [← outputs, fills.found] at found
    exact (Option.some.inj found).symm
  subst written
  refine ⟨output, result, fills, ?_, fun aligned schedule inputs room lent lentRoom => ?_⟩
  · obtain ⟨old, foundOld, reshaped⟩ := sound.executes.table.exists_old fills.found
    have among : step.node ∈ job.graph.nodes := by
      rw [← sound.executes.nodes_eq]
      exact List.mem_map_of_mem listed
    rw [reshaped.producer_eq]
    exact wellFormed.produced foundOld among (by simp [fills.outputs_eq])
  · refine (made.sound before among).delivers ready ?_ ?_ ?_ ?_ schedule
    · intro shape given
      obtain ⟨operand, operandListed, rfl⟩ := List.mem_map.mp given
      obtain ⟨id, _, found⟩ := exists_of_forall₂_right admitted.found operandListed
      have fits := sized.bytes operand (List.mem_of_getElem? found)
      have least : operand.shape.elementCount ≤ operand.byteCount :=
        Nat.le_mul_of_pos_right _ operand.element.width_pos
      omega
    · intro pool shape first
      rw [List.getElem?_map, Option.map_eq_some_iff] at first
      obtain ⟨operand, first, rfl⟩ := first
      obtain ⟨id, read, found⟩ := getElem?_of_forall₂ admitted.found.flip first
      exact sized.areas step listed (madeFor.kind_eq.symm.trans pool) id
        (List.mem_of_getElem? read) operand found
    · intro index read shape found
      rw [List.getElem?_map, Option.map_eq_some_iff] at found
      obtain ⟨operand, found, rfl⟩ := found
      obtain ⟨id, input, foundOperand⟩ := getElem?_of_forall₂ admitted.found.flip found
      obtain ⟨buffer, given, other, foundOther, lends⟩ := getElem?_of_forall₂ lent input
      cases foundOperand.symm.trans foundOther
      refine ⟨buffer, given, ?_⟩
      rw [width, ← admitted.operandWidth read found]
      exact lends
    · rw [madeFor.width_eq, admitted.resultWidth]
      exact lentRoom

/-- While sizes fit, a run on blobs that all values fit in fails for want of alignment only, and
leaves all rooms as they are. -/
theorem MadeSoundly.runSteps (made : job.MadeSoundly executable)
    (sound : session.Sound job.graph executable) (bound : session.bound.isSome = true)
    (sized : session.executable.SizesFit) {blobs : BlobTable}
    (binds : session.executable.BindsAll blobs) {aligned : Prop}
    (aligns : aligned → session.executable.AlignsEmpty blobs) (schedule : Schedule) :
    let report := TensorEngine.runSteps session.executable.settings session.executable.values
      schedule session.executable.steps blobs session.executable.trace
    report.outcome.UnlessMisaligned aligned ∧ report.blobs.SameRooms blobs := by
  have filled : ContentsFilled session.executable.values := fun id value bytes found static =>
    sound.executes.table.filled (Graph.wellFormed_afterCalls _ _) found static
  refine runSteps_delivers (made.capable sound bound sized) filled (fun step listed id used => ?_)
    schedule session.executable.trace
  have operand : id ∈ session.executable.operandIds :=
    List.mem_flatMap.mpr ⟨step.node, List.mem_map_of_mem listed, used⟩
  obtain ⟨value, found, fits⟩ := binds id operand
  exact ⟨value, found, fits, fun given => aligns given id operand value found⟩

/-- While sizes fit, a run of a session that has not failed fails for want of alignment only. A run
leaves all rooms as they are. -/
theorem MadeSoundly.run (made : job.MadeSoundly executable)
    (sound : session.Sound job.graph executable) {blobs : BlobTable}
    (bound : session.bound = some blobs) (sized : session.executable.SizesFit)
    (binds : session.executable.BindsAll blobs) {aligned : Prop}
    (aligns : aligned → session.executable.AlignsEmpty blobs) (schedule : Schedule) :
    let done := ((⟨session.executable, blobs⟩ : Bound StandardOperator).run schedule).result
    (session.executable.state ≠ .failed → done.2.UnlessMisaligned aligned) ∧
      done.1.blobs.SameRooms blobs := by
  obtain ⟨ended, rooms⟩ := made.runSteps sound (by rw [bound]; rfl) sized binds aligns schedule
  unfold Bound.run
  dsimp only
  split
  · rename_i failed
    exact ⟨fun live => absurd failed live, .refl blobs⟩
  · exact ⟨fun _ => ended, rooms⟩

end CompileJob

/-- A run keeps the values and the nodes. -/
theorem Bound.run_sameDemands {Op : Type} [Operator Op] (binding : Bound Op)
    (schedule : Schedule) :
    (binding.run schedule).result.1.executable.SameDemands binding.executable := by
  unfold Bound.run
  dsimp only
  split <;> exact ⟨rfl, rfl⟩

theorem Bound.overwrite_rooms {Op : Type} {binding written : Bound Op} {id : Nat} {bytes : Bytes}
    {count : Nat} (ran : binding.overwrite UInt8 id bytes = .ok (written, count)) :
    written.blobs.SameRooms binding.blobs := by
  unfold Bound.overwrite at ran
  split at ran
  · cases ran
  · rename_i blob bound
    split at ran
    · cases ran
    · obtain ⟨_, _, same⟩ := bind_eq_ok_iff.mp ran
      cases same
      refine .insert bound ?_ fun _ _ => rfl
      simp only [Blob.room, Buffer.size, overlay_size]

/-- A computation that fails for want of alignment only has a result where all is aligned. -/
theorem Outcome.eq_ok_of_aligned {outcome : Outcome Unit} {aligned : Prop}
    (ended : outcome.UnlessMisaligned aligned) (given : aligned) : outcome = .ok () := by
  cases outcome with
  | ok done => rfl
  | error fault => exact absurd given (ended fault rfl).2

/-! ## Calls -/

/-- What calls keep of bound blobs while sizes fit: all values fit in their blobs, and the session
is ready for a run if the blobs are aligned. -/
structure Session.Guarded (session : Session) : Prop where
  binds : ∀ blobs, session.bound = some blobs → session.executable.SizesFit →
    session.executable.BindsAll blobs
  state_eq : ∀ blobs, session.bound = some blobs → session.executable.SizesFit →
    session.executable.AlignsEmpty blobs → session.executable.state = .bound

namespace Session.Guarded

variable {job : CompileJob} {executable : Executable StandardOperator} {session : Session}

theorem start (executable : Executable StandardOperator) : (Session.start executable).Guarded where
  binds := nofun
  state_eq := nofun

/-- A set-up binds blobs that all values fit in. -/
theorem afterSetup (sound : session.Sound job.graph executable) (blobs : BlobTable) :
    (Session.afterSetup blobs (session.executable.setup blobs).result).Guarded := by
  obtain ⟨sameValues, _, stay⟩ := session.executable.setup_stays blobs
  have same : (session.executable.setup blobs).result.1.SameDemands session.executable :=
    ⟨sameValues, Step.Stays.nodes_eq stay⟩
  cases ran : (session.executable.setup blobs).result with
  | mk after outcome =>
      rw [ran] at same
      cases outcome with
      | error fault => exact start after
      | ok done =>
          have outcome : (session.executable.setup blobs).result.2 = .ok () := by rw [ran]
          have wellFormed := Graph.wellFormed_afterCalls job.externalCount job.calls
          rw [Executable.setup_outcome _ blobs (sound.executes.operands_found wellFormed),
            bind_eq_ok_iff] at outcome
          obtain ⟨_, passed, _⟩ := outcome
          have binds := (sound.executes.checks_iff wellFormed blobs).mp passed
          obtain ⟨_, _, state⟩ := setup_eq_ok_iff.mp ran
          constructor
          · intro bound given _
            cases given
            exact same.bindsAll (.refl blobs) binds
          · intro bound given _ _
            dsimp only [Session.afterSetup]
            rw [state]

/-- A run keeps the rooms of all blobs, and does not fail if they are aligned. -/
theorem afterRun (made : job.MadeSoundly executable) (sound : session.Sound job.graph executable)
    (guarded : session.Guarded) (schedule : Schedule) :
    (session.after (.run schedule)).Guarded := by
  unfold Session.after Session.afterBound
  cases bound : session.bound with
  | none => exact guarded
  | some blobs =>
      have same := Bound.run_sameDemands ⟨session.executable, blobs⟩ schedule
      have runs := fun sized {aligned} => @CompileJob.MadeSoundly.run job executable session made
        sound blobs bound sized (guarded.binds blobs bound sized) aligned
      constructor
      · intro others given sized
        cases given
        have sizedBefore := same.symm.sizesFit sized
        obtain ⟨_, rooms⟩ := runs sizedBefore False.elim schedule
        exact same.bindsAll rooms (guarded.binds blobs bound sizedBefore)
      · intro others given sized aligned
        cases given
        have sizedBefore := same.symm.sizesFit sized
        obtain ⟨_, rooms⟩ := runs sizedBefore False.elim schedule
        have alignedBefore := same.symm.alignsEmpty rooms.symm aligned
        have state := guarded.state_eq blobs bound sizedBefore alignedBefore
        have live : session.executable.state ≠ .failed := by
          rw [state]
          decide
        obtain ⟨ended, _⟩ := runs sizedBefore (fun _ : True => alignedBefore) schedule
        have succeeded := Outcome.eq_ok_of_aligned (ended live) trivial
        obtain ⟨after, ran⟩ := exists_ran (by rw [succeeded]; rfl)
        obtain ⟨_, _, rfl⟩ := Bound.run_eq_ok_iff.mp ran
        dsimp only
        rw [ran]

theorem afterOverwrite (guarded : session.Guarded) (id : Nat) (bytes : Bytes) :
    (session.after (.overwrite id bytes)).Guarded := by
  unfold Session.after Session.afterBound
  cases bound : session.bound with
  | none => exact guarded
  | some blobs =>
      dsimp only
      split
      · rename_i written count ran
        have rooms := Bound.overwrite_rooms ran
        have same : written.executable.SameDemands session.executable := by
          rw [Bound.overwrite_executable ran]
          exact .refl _
        constructor
        · intro others given sized
          cases given
          exact same.bindsAll rooms (guarded.binds blobs bound (same.symm.sizesFit sized))
        · intro others given sized aligned
          cases given
          rw [Bound.overwrite_executable ran] at sized aligned ⊢
          exact guarded.state_eq blobs bound sized
            ((Executable.SameDemands.refl _).alignsEmpty rooms.symm aligned)
      · rw [← bound]
        exact guarded

theorem after (made : job.MadeSoundly executable) (sound : session.Sound job.graph executable)
    (guarded : session.Guarded) (call : SessionCall) : (session.after call).Guarded := by
  cases call with
  | reshape id shape => exact start _
  | setup blobs => exact afterSetup sound blobs
  | run schedule => exact afterRun made sound guarded schedule
  | overwrite id bytes => exact afterOverwrite guarded id bytes

end Session.Guarded

/-- Any calls keep the session of soundly compiled graphs guarded. -/
theorem CompileJob.MadeSoundly.guarded {job : CompileJob}
    {executable : Executable StandardOperator} (made : job.MadeSoundly executable)
    (history : List SessionCall) : ((Session.start executable).afterCalls history).Guarded := by
  have calls : ∀ (history : List SessionCall) (session : Session),
      session.Sound job.graph executable → session.Guarded →
        (session.afterCalls history).Guarded := by
    intro history
    induction history with
    | nil => exact fun _ _ guarded => guarded
    | cons call history inductionHypothesis =>
        intro session sound guarded
        have blank := fun step listed =>
          (operators_of_made made.compiled.steps step listed).blank_eq
        exact inductionHypothesis _
          (sound.after (Graph.wellFormed_afterCalls _ _) blank call)
          (guarded.after made sound call)
  exact calls history _ (made.compiled.sound_afterCalls []) (.start executable)

/-- A run after a successful set-up never breaks an internal contract.

Graphs have been constructed by any calls, and compiled one after another on any hosts, with any
settings and any tables, and with one cache of packed weights that was empty at first, if any. On
the last one any calls have been made, reshapes, set-ups, runs and writes to its blobs, and it is
bound. Sizes, and 255 times the area of the images of every pooling, fit 63 bits. Then a run
succeeds or ends with an error for the caller: no index or slice is outside its array, no range of
codes or numbers is empty, nothing is divided by zero and no integer overflows, whatever is in the
blobs and in whichever order tiles are worked on. -/
theorem run_never_breaches (start : Workshop) (fresh : start.HoldsNoWeights)
    (earlier : List CompileJob) (job : CompileJob) (executable : Executable StandardOperator)
    (closed : Graph) (ran : (job.run (start.afterJobs earlier)).1 = .ok (executable, closed))
    (history : List SessionCall) (session : Session)
    (reached : (Session.start executable).afterCalls history = session)
    (blobs : BlobTable) (bound : session.bound = some blobs)
    (sized : session.executable.SizesFit) (schedule : Schedule) :
    let ended := ((⟨session.executable, blobs⟩ : Bound StandardOperator).run schedule).result.2
    ended = .ok () ∨ ∃ cause, ended = .error (.refused cause) := by
  subst reached
  have made := CompileJob.madeSoundly fresh ran
  have sound := made.compiled.sound_afterCalls history
  have binds := (made.guarded history).binds blobs bound sized
  obtain ⟨fails, _⟩ := made.run sound bound sized binds False.elim schedule
  intro ended
  by_cases live : ((Session.start executable).afterCalls history).executable.state = .failed
  · have refused : ended = Outcome.invalidState .failedEarlier := by
      dsimp only [ended]
      unfold Bound.run
      dsimp only
      rw [if_pos live]
    exact .inr ⟨_, refused⟩
  · cases result : ended with
    | ok done => exact .inl rfl
    | error fault => exact .inr ⟨_, congrArg _ (fails live fault result).1⟩

/-- The theorem applies to the pooling, set up for smaller images than it was compiled for. -/
theorem run_never_breaches_pooled :
    let session := (Session.start pooledExecutable).afterCalls
      [.reshape 0 [1, 1, 1, 2], .setup pooledBlobs]
    session.bound = some pooledBlobs ∧ session.executable.SizesFit ∧
      let ended := ((⟨session.executable, pooledBlobs⟩ : Bound StandardOperator).run
        .backwards).result.2
      ended = .ok () ∨ ∃ cause, ended = .error (.refused cause) := by
  intro session
  have bound : session.bound = some pooledBlobs := by decide +kernel
  have sized : session.executable.SizesFit := by decide +kernel
  have ran : ((portableJob pooledGraph).run ({} : Workshop)).1 =
      .ok (pooledExecutable, (portableJob pooledGraph).graph.closed) := by
    cbv
  exact ⟨bound, sized, run_never_breaches {} (by rintro cache ⟨⟩) [] (portableJob pooledGraph)
    pooledExecutable _ ran _ session rfl pooledBlobs bound sized .backwards⟩

/-- Every run after a successful set-up succeeds if empty blobs are aligned.

A graph has been constructed, compiled, and used by any calls since, and it is bound. Sizes, and
255 times the area of the images of every pooling, fit 63 bits. The set-up has checked the alignment
of all blobs that have to hold something. If the others are aligned as well, then a run succeeds,
whatever the blobs hold and in whichever order tiles are worked on. -/
theorem run_succeeds_on_aligned_blobs (start : Workshop) (fresh : start.HoldsNoWeights)
    (earlier : List CompileJob) (job : CompileJob) (executable : Executable StandardOperator)
    (closed : Graph) (ran : (job.run (start.afterJobs earlier)).1 = .ok (executable, closed))
    (history : List SessionCall) (session : Session)
    (reached : (Session.start executable).afterCalls history = session)
    (blobs : BlobTable) (bound : session.bound = some blobs)
    (sized : session.executable.SizesFit) (aligned : session.executable.AlignsEmpty blobs)
    (schedule : Schedule) :
    ((⟨session.executable, blobs⟩ : Bound StandardOperator).run schedule).result.2 = .ok () := by
  subst reached
  have made := CompileJob.madeSoundly fresh ran
  have sound := made.compiled.sound_afterCalls history
  have guarded := made.guarded history
  have binds := guarded.binds blobs bound sized
  have state := guarded.state_eq blobs bound sized aligned
  obtain ⟨ended, _⟩ := made.run sound bound sized binds (fun _ : True => aligned) schedule
  exact Outcome.eq_ok_of_aligned (ended (by rw [state]; decide)) trivial

/-- A graph of one absolute value of a tensor without elements. -/
def emptyGraph : List BuildCall :=
  [.tensor ⟨.float32, [0], none, some 0, .externalInput⟩,
    .tensor ⟨.float32, [0], none, some 1, .externalOutput⟩,
    .node .abs [0] [1] .none 0]

def emptyExecutable : Executable StandardOperator where
  values := ((Graph.withExternalValues 2).afterCalls emptyGraph).values
  steps := [⟨⟨0, .abs, .fp32, [0], [1], .none, 0⟩, .mapping ⟨.abs, .single .abs, 1, 4096, 0⟩⟩]
  state := .compiled
  settings := {}
  sharesPacked := false
  sharesTables := false
  trace := []

def emptyBlobs (address : Nat) : BlobTable :=
  (BlobTable.empty.insert 0 ⟨⟨#[], address⟩, false⟩).insert 1 ⟨⟨#[], address⟩, true⟩

/-- The theorem applies to the absolute value, with empty blobs at an aligned address. -/
theorem run_succeeds_on_aligned_blobs_empty :
    let session := (Session.start emptyExecutable).afterCalls [.setup (emptyBlobs 4)]
    session.bound = some (emptyBlobs 4) ∧ session.executable.SizesFit ∧
      session.executable.AlignsEmpty (emptyBlobs 4) ∧
        ((⟨session.executable, emptyBlobs 4⟩ : Bound StandardOperator).run
          .sequential).result.2 = .ok () := by
  intro session
  have bound : session.bound = some (emptyBlobs 4) := by decide +kernel
  have sized : session.executable.SizesFit := by decide +kernel
  have aligned : session.executable.AlignsEmpty (emptyBlobs 4) := by decide +kernel
  have ran : ((portableJob emptyGraph).run ({} : Workshop)).1 =
      .ok (emptyExecutable, (portableJob emptyGraph).graph.closed) := by
    cbv
  exact ⟨bound, sized, aligned, run_succeeds_on_aligned_blobs {} (by rintro cache ⟨⟩) []
    (portableJob emptyGraph) emptyExecutable _ ran _ session rfl (emptyBlobs 4) bound sized aligned
    .sequential⟩

/-- A run can fail after a set-up that has succeeded: next to an aligned address, an empty blob
passes the check of the set-up, but cannot be viewed as elements. -/
theorem run_fails_on_empty_blobs :
    let session := (Session.start emptyExecutable).afterCalls [.setup (emptyBlobs 5)]
    ((portableJob emptyGraph).run ({} : Workshop)).1 =
        .ok (emptyExecutable, (portableJob emptyGraph).graph.closed) ∧
      session.bound = some (emptyBlobs 5) ∧ session.executable.SizesFit ∧
        ((⟨session.executable, emptyBlobs 5⟩ : Bound StandardOperator).run
          .sequential).result.2 = .error .misaligned := by
  intro session
  refine ⟨?_, ?_, ?_, ?_⟩
  · cbv
  · decide +kernel
  · decide +kernel
  · rfl

end TensorEngine
