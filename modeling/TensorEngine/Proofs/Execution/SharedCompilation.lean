import TensorEngine.Proofs.Execution.Acceptance
import TensorEngine.Proofs.Kernel.SharedWeights

/-!
Contract: compilations that share one cache of packed weights.

Owns:
- `CompileJob`, the compilation of a constructed graph, and the workshop after a sequence of them;
- `CompileJob.ensures`, what the operators of a compiled graph have from their factories;
- `CollisionFree`, weights whose streams can be told apart by their digests;
- the theorem that each product of each compilation has the packed weights of its own node.

Does not own: whether a compilation succeeds.
-/

namespace TensorEngine

open Making TensorEngine.Numeric

/-! ## Weights of graphs -/

namespace Graph

def productWeights (graph : Graph) : List (Value × Option Value) :=
  graph.nodes.filterMap fun node => node.productWeights? graph.values

/-- The extents of all filters are words of 64 bits. -/
def FiltersInWords (graph : Graph) : Prop :=
  ∀ weights ∈ graph.productWeights, ∀ extent ∈ weights.1.shape, extent < 2 ^ 64

end Graph

/-- No two different streams of these weights have one digest. -/
def CollisionFree (known : List (Value × Option Value)) : Prop :=
  ∀ weights ∈ known, ∀ others ∈ known,
    Fingerprint.ofWeights weights.1 weights.2 = Fingerprint.ofWeights others.1 others.2 →
      Fingerprint.weightStream weights.1 weights.2 = Fingerprint.weightStream others.1 others.2

/-- The weights of an admitted product are a matrix and a row. -/
theorem Graph.Admitted.isWeight {graph : Graph} (admitted : graph.Admitted)
    (wellFormed : graph.WellFormed) (words : graph.FiltersInWords)
    {weights : Value × Option Value} (listed : weights ∈ graph.productWeights) :
    weights.1.IsWeight 2 ∧ ∀ given, weights.2 = some given → given.IsWeight 1 := by
  obtain ⟨node, among, found⟩ := List.mem_filterMap.mp listed
  unfold Node.productWeights? at found
  obtain ⟨multiply, found⟩ := Option.ite_none_right_eq_some.mp found
  obtain ⟨filter, foundFilter, rfl⟩ := Option.map_eq_some_iff.mp found
  obtain ⟨operands, output, admittedNode⟩ := admitted node among
  obtain ⟨input, matrix, bias, given⟩ := admittedNode.exists_productOperands multiply
  have operandsFound := admittedNode.found
  rw [given.operands_eq] at operandsFound
  have operand : ∀ index value, node.operand? graph.values index = some value →
      (input :: matrix :: bias.toList)[index]? = some value ∧ value.Sound := by
    intro index value found
    obtain ⟨id, read, foundValue⟩ := Option.bind_eq_some_iff.mp found
    obtain ⟨other, listedOther, foundOther⟩ := getElem?_of_forall₂ operandsFound read
    cases foundValue.symm.trans foundOther
    exact ⟨listedOther, wellFormed.sound_operand among
      (List.mem_append_left _ (List.mem_of_getElem? read)) foundValue⟩
  obtain ⟨inner, outputs, channels, _, row, _⟩ := OpKind.productShape_eq_ok_iff.mp given.shape
  obtain ⟨isFilter, soundFilter⟩ := operand 1 filter foundFilter
  cases isFilter
  have shape := filterChannels_eq_ok_iff.mp channels
  have filterWords := words _ listed
  constructor
  · exact ⟨soundFilter, given.filter_static, by rw [shape]; split <;> rfl, filterWords⟩
  · intro value foundBias
    obtain ⟨isBias, soundBias⟩ := operand 2 value foundBias
    cases bias with
    | none => cases isBias
    | some bias =>
        cases isBias
        have rowShape : value.shape = [outputs] := row _ rfl
        refine ⟨soundBias, (given.bias_element value rfl).2, by rw [rowShape]; rfl, ?_⟩
        rw [rowShape, List.forall_mem_singleton]
        apply filterWords
        rw [shape]
        split <;> simp

/-! ## Compilations -/

/-- The compilation of a constructed graph: the host, the calls that construct the graph, the
settings, and the cache of lookup tables it is given, which may hold anything. -/
structure CompileJob where
  features : Features
  externalCount : Nat
  calls : List BuildCall
  settings : Settings
  tables : Option CodeCache

namespace CompileJob

def graph (job : CompileJob) : Graph :=
  (Graph.withExternalValues job.externalCount).afterCalls job.calls

def run (job : CompileJob) (workshop : Workshop) :
    Outcome (Executable StandardOperator × Graph) × Workshop :=
  compile (Catalog.standard job.features) job.graph job.settings
    { workshop with code := job.tables }

end CompileJob

namespace Workshop

/-- The workshop after a sequence of compilations that share its cache of packed weights. -/
def afterJobs (workshop : Workshop) (jobs : List CompileJob) : Workshop :=
  jobs.foldl (fun workshop job => (job.run workshop).2) workshop

/-- A cache of packed weights, if there is one, is empty. -/
def HoldsNoWeights (workshop : Workshop) : Prop :=
  ∀ cache, workshop.packing = some cache → cache.entries = []

theorem HoldsNoWeights.peek?_eq {workshop : Workshop} (fresh : workshop.HoldsNoWeights)
    {cache : PackingCache} (present : workshop.packing = some cache) (key : PackingKey) :
    cache.peek? key = none := by
  unfold PublishOnce.peek?
  rw [fresh cache present]
  rfl

theorem HoldsNoWeights.packedFrom {workshop : Workshop} (fresh : workshop.HoldsNoWeights)
    {known : List (Value × Option Value)}
    (distinct : workshop.packing.isSome = true → DistinctWeights known) :
    PackedFrom known workshop.packing := by
  intro cache present
  refine ⟨distinct (by rw [present]; rfl), fun key artifact found => ?_⟩
  rw [fresh.peek?_eq present] at found
  cases found

end Workshop

/-- A sequence of compilations keeps an invariant of their cache that each of them keeps. -/
theorem Workshop.afterJobs_keeps {invariant : Option PackingCache → Prop} {jobs : List CompileJob}
    (each : ∀ job ∈ jobs, ∀ workshop : Workshop, invariant workshop.packing →
      invariant (job.run workshop).2.packing)
    {start : Workshop} (kept : invariant start.packing) :
    invariant (start.afterJobs jobs).packing := by
  induction jobs generalizing start with
  | nil => exact kept
  | cons job jobs inductionHypothesis =>
      exact inductionHypothesis (fun later among => each later (List.mem_cons_of_mem _ among))
        (each job List.mem_cons_self start kept)

theorem CompileJob.compiled {job : CompileJob} {workshop : Workshop}
    {executable : Executable StandardOperator} {closed : Graph}
    (ran : (job.run workshop).1 = .ok (executable, closed)) :
    Compiled job.graph job.settings executable := by
  have ended := compile_ends job.features job.graph job.settings
    { workshop with code := job.tables }
  unfold run at ran
  rw [ran] at ended
  exact ended.1

def CompileJob.context (job : CompileJob) (node : Node) : CreateContext where
  node := node
  values := job.graph.values
  features := (Catalog.standard job.features).features
  tileElements := job.settings.tileElements

theorem CompileJob.exists_admits (job : CompileJob) {node : Node}
    (listed : node ∈ job.graph.nodes) (features : Features) (tileElements : Nat) :
    ∃ operands output,
      CreateContext.Admits ⟨node, job.graph.values, features, tileElements⟩ operands output :=
  (Graph.wellFormed_afterCalls _ _).exists_admits (Graph.admitted_afterCalls _ _) listed features
    tileElements

/-- The operators of a compiled graph are what the factories ensure for admitted nodes, whatever
their caches hold. -/
theorem CompileJob.ensures {job : CompileJob} {workshop : Workshop}
    {executable : Executable StandardOperator} {closed : Graph}
    (ran : (job.run workshop).1 = .ok (executable, closed))
    {ensured : Node → StandardOperator → Prop}
    (each : ∀ node factory operands output, (job.context node).Admits operands output →
      Catalog.Offers node.key factory →
        (factory.create (job.context node)).Ends (ensured node) (fun _ => True)) :
    ∀ step ∈ executable.steps, ensured step.node step.operator := by
  have keeps := compile_keeps job.features job.settings job.graph
    (fun node listed factory offers => by
      obtain ⟨operands, output, admits⟩ := job.exists_admits listed
        (Catalog.standard job.features).features job.settings.tileElements
      exact Making.Keeps.of_ends (each node factory operands output admits offers))
    { workshop with code := job.tables } trivial
  exact keeps.2 _ ran

theorem CompileJob.exists_of_isSome (job : CompileJob) (workshop : Workshop)
    (compiles : ((job.run workshop).1).toOption.isSome = true) :
    ∃ executable closed, (job.run workshop).1 = .ok (executable, closed) ∧
      executable.steps.map (·.node) = job.graph.nodes := by
  cases ran : (job.run workshop).1 with
  | error fault =>
      rw [ran] at compiles
      cases compiles
  | ok made =>
      exact ⟨made.1, made.2, rfl, nodes_of_made (compiled ran).steps⟩

/-- A compilation keeps a cache of known weights, among them its own, and makes products with the
weights of their own nodes. -/
theorem CompileJob.keeps {known : List (Value × Option Value)} (job : CompileJob)
    (listed : ∀ weights ∈ job.graph.productWeights, weights ∈ known) (workshop : Workshop)
    (kept : PackedFrom known workshop.packing) :
    PackedFrom known (job.run workshop).2.packing ∧
      ∀ made, (job.run workshop).1 = .ok made → ∀ step ∈ made.1.steps,
        step.operator.HoldsWeightsOf step.node job.graph.values :=
  compile_keeps job.features job.settings job.graph
    (fun node among _ offers => offers.holdsWeights fun weights found =>
      listed weights (List.mem_filterMap.mpr ⟨node, among, found⟩))
    { workshop with code := job.tables } kept

/-! ## Sequences of compilations -/

/-- Filter and bias of every product of the graphs of a sequence of compilations. -/
def CompileJob.knownWeights (jobs : List CompileJob) : List (Value × Option Value) :=
  jobs.flatMap fun job => job.graph.productWeights

/-- The weights of constructed graphs are a matrix and a row. -/
theorem CompileJob.isWeight {jobs : List CompileJob}
    (words : ∀ job ∈ jobs, job.graph.FiltersInWords) :
    ∀ weights ∈ knownWeights jobs,
      weights.1.IsWeight 2 ∧ ∀ given, weights.2 = some given → given.IsWeight 1 := by
  intro weights listed
  obtain ⟨job, among, own⟩ := List.mem_flatMap.mp listed
  exact (Graph.admitted_afterCalls _ _).isWeight (Graph.wellFormed_afterCalls _ _)
    (words job among) own

theorem CompileJob.distinctWeights {jobs : List CompileJob}
    (words : ∀ job ∈ jobs, job.graph.FiltersInWords)
    (collisionFree : CollisionFree (knownWeights jobs)) :
    DistinctWeights (knownWeights jobs) where
  filter weights listed := (isWeight words weights listed).1
  bias weights listed := (isWeight words weights listed).2
  stream_eq := collisionFree

/-- Compilations keep a cache of known weights. -/
theorem Workshop.packedFrom_afterJobs {start : Workshop} (fresh : start.HoldsNoWeights)
    {known : List (Value × Option Value)}
    (distinct : start.packing.isSome = true → DistinctWeights known) {jobs : List CompileJob}
    (listed : ∀ made ∈ jobs, ∀ weights ∈ made.graph.productWeights, weights ∈ known) :
    PackedFrom known (start.afterJobs jobs).packing :=
  Workshop.afterJobs_keeps
    (fun made among workshop kept => (made.keeps (listed made among) workshop kept).1)
    (fresh.packedFrom distinct)

/-- What a compilation makes after others has the weights of its own nodes. -/
theorem CompileJob.holdsWeights {start : Workshop} (fresh : start.HoldsNoWeights)
    {known : List (Value × Option Value)}
    (distinct : start.packing.isSome = true → DistinctWeights known)
    {earlier : List CompileJob} {job : CompileJob}
    (listed : ∀ made ∈ earlier ++ [job], ∀ weights ∈ made.graph.productWeights, weights ∈ known)
    {executable : Executable StandardOperator} {closed : Graph}
    (ran : (job.run (start.afterJobs earlier)).1 = .ok (executable, closed)) :
    ∀ step ∈ executable.steps, step.operator.HoldsWeightsOf step.node job.graph.values := by
  have packed := Workshop.packedFrom_afterJobs fresh distinct
    fun made among => listed made (List.mem_append_left _ among)
  exact (job.keeps (listed job (by simp)) _ packed).2 _ ran

/-- The cache of packed weights is transparent.

Graphs have been constructed by any calls, and are compiled one after another, on any hosts, with
any settings and any tables, and with one cache of packed weights that was empty at first. Extents
are words of 64 bits. Then the stream that is hashed determines the storage type, the shape, the
quantization and the contents of filter and bias. If no two of the streams share a digest, a key
determines what is packed, and each product of each compiled graph holds the weights that come of
packing the filter and the bias of its own node directly, for the compute type, the flags and the
zero point of the input of that node. -/
theorem packing_cache_transparent (start : Workshop) (fresh : start.HoldsNoWeights)
    (jobs : List CompileJob) (words : ∀ job ∈ jobs, job.graph.FiltersInWords) :
    (∀ weights ∈ CompileJob.knownWeights jobs, ∀ others ∈ CompileJob.knownWeights jobs,
      Fingerprint.weightStream weights.1 weights.2 = Fingerprint.weightStream others.1 others.2 →
        weights.1.SameTensor others.1 ∧ Option.Rel Value.SameTensor weights.2 others.2) ∧
    (CollisionFree (CompileJob.knownWeights jobs) →
      (∀ weights ∈ CompileJob.knownWeights jobs, ∀ others ∈ CompileJob.knownWeights jobs,
        ∀ compute otherCompute flags otherFlags zeroPoint otherZeroPoint,
        Product.packingKey compute weights.1 weights.2 flags zeroPoint =
          Product.packingKey otherCompute others.1 others.2 otherFlags otherZeroPoint →
        PackedWeights.pack compute weights.1 weights.2 flags zeroPoint =
          PackedWeights.pack otherCompute others.1 others.2 otherFlags otherZeroPoint) ∧
      ∀ earlier job later, jobs = earlier ++ job :: later → ∀ executable closed,
        (job.run (start.afterJobs earlier)).1 = .ok (executable, closed) →
        ∀ step ∈ executable.steps, step.node.kind = .fullyConnected →
          ∃ artifact filter, step.operator.packed? = some artifact ∧
            step.node.operand? job.graph.values 1 = some filter ∧
            PackedWeights.pack step.node.compute filter (step.node.operand? job.graph.values 2)
              step.node.flags (step.node.inputZeroPoint job.graph.values) =
              .ok artifact.weights) := by
  have weight := CompileJob.isWeight words
  constructor
  · intro weights listed others listedOthers same
    exact Fingerprint.weightStream_injective (weight weights listed).1
      (weight others listedOthers).1 (weight weights listed).2 (weight others listedOthers).2 same
  · intro collisionFree
    have distinct := CompileJob.distinctWeights words collisionFree
    constructor
    · intro weights listed others listedOthers _ _ _ _ _ _ sameKey
      exact distinct.pack_eq listed listedOthers sameKey
    · intro earlier job later jobs_eq executable closed ran step among multiply
      have listed : ∀ made ∈ earlier ++ [job], ∀ weights ∈ made.graph.productWeights,
          weights ∈ CompileJob.knownWeights jobs := by
        intro made amongJobs weights own
        refine List.mem_flatMap.mpr ⟨made, ?_, own⟩
        rw [jobs_eq, List.append_cons]
        exact List.mem_append_left _ amongJobs
      have holds := CompileJob.holdsWeights fresh (fun _ => distinct) listed ran step among
      unfold StandardOperator.HoldsWeightsOf at holds
      cases packed : step.operator.packed? with
      | none =>
          rw [packed] at holds
          exact absurd multiply holds
      | some artifact =>
          rw [packed] at holds
          obtain ⟨filter, bias, weights, made⟩ := holds
          unfold Node.productWeights? at weights
          rw [if_pos multiply] at weights
          obtain ⟨_, foundFilter, same⟩ := Option.map_eq_some_iff.mp weights
          obtain ⟨rfl, rfl⟩ := Prod.mk.inj same
          exact ⟨artifact, _, rfl, foundFilter, made⟩

/-- A graph of one product of codes, with six weights as a filter of this shape and layout. -/
def filterGraph (filter : Shape) (flags : UInt32) : List BuildCall :=
  [.quantizedTensor ⟨.qint8, [1, 2], none, some 0, .externalInput⟩ ⟨-3, Binary32.one⟩,
    .quantizedTensor ⟨.qint8, [1, 3], none, some 1, .externalOutput⟩ ⟨5, Binary32.one⟩,
    .quantizedTensor ⟨.qint8, filter, some #[1, 2, 3, 4, 5, 255], none, .none⟩ ⟨0, Binary32.one⟩,
    .node .fullyConnected [0, 2] [1]
      (.outputRange Binary32.negativeInfinity Binary32.infinity) flags]

/-- A compilation on a portable host, without tables. -/
def portableJob (calls : List BuildCall) : CompileJob := ⟨.portable, 2, calls, {}, none⟩

/-- The theorem applies to two filters with the same contents, one laid out by output channels and
one by input channels. -/
theorem packing_cache_transparent_layouts :
    let first := portableJob (filterGraph [3, 2] 0)
    let second := portableJob (filterGraph [2, 3] 1)
    let start : Workshop := { packing := some {} }
    CollisionFree (CompileJob.knownWeights [first, second]) ∧
      ∃ executable closed, (second.run (start.afterJobs [first])).1 = .ok (executable, closed) ∧
        ∀ step ∈ executable.steps, step.node.kind = .fullyConnected →
          ∃ artifact filter, step.operator.packed? = some artifact ∧
            step.node.operand? second.graph.values 1 = some filter ∧
            PackedWeights.pack step.node.compute filter
              (step.node.operand? second.graph.values 2) step.node.flags
              (step.node.inputZeroPoint second.graph.values) = .ok artifact.weights := by
  intro first second start
  have words : ∀ job ∈ [first, second], job.graph.FiltersInWords := by
    unfold Graph.FiltersInWords
    decide +kernel
  have told : ∀ weights ∈ CompileJob.knownWeights [first, second],
      ∀ others ∈ CompileJob.knownWeights [first, second],
        Fingerprint.weightStream weights.1 weights.2 =
            Fingerprint.weightStream others.1 others.2 ∨
          Fingerprint.ofWeights weights.1 weights.2 ≠
            Fingerprint.ofWeights others.1 others.2 := by
    decide +kernel
  have collisionFree : CollisionFree (CompileJob.knownWeights [first, second]) :=
    fun weights listed others listedOthers sameDigest =>
      (told weights listed others listedOthers).resolve_right fun different =>
        different sameDigest
  have compiles : ((second.run (start.afterJobs [first])).1).toOption.isSome = true := by
    decide +kernel
  have fresh : start.HoldsNoWeights := by
    rintro cache ⟨⟩
    rfl
  refine ⟨collisionFree, ?_⟩
  obtain ⟨_, transparent⟩ :=
    (packing_cache_transparent start fresh [first, second] words).2 collisionFree
  cases ran : (second.run (start.afterJobs [first])).1 with
  | error fault =>
      rw [ran] at compiles
      cases compiles
  | ok made =>
      exact ⟨made.1, made.2, rfl, transparent [first] second [] rfl made.1 made.2 ran⟩

end TensorEngine
