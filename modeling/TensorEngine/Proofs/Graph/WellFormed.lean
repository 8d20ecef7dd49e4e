import TensorEngine.Proofs.Graph.WordSizes

/-!
Contract: the linked tables of a graph agree with each other after every construction.

Owns:
- `Value.Sound`, what holds of every described tensor on its own;
- `Graph.WellFormed`, the agreement of the tables of values and nodes, with producers and readers;
- the theorem that every sequence of calls keeps the tables in agreement.

Does not own: which nodes the checks admit.

The order of definition is topological only because three checks work together: an output is no
input of its node, has no producer, and has no reader yet. Each reader therefore comes later than
the producer.
-/

namespace TensorEngine

/-- A described tensor: of bounded rank, with parameters exactly for codes, and with contents that
fill its shape. -/
structure Value.Sound (value : Value) : Prop where
  rank : value.shape.length ≤ Shape.maxRank
  quantized : value.quantization.isSome = value.element.isQuantized
  valid : ∀ given, value.quantization = some given → given.validate value.element = .ok ()
  filled : ∀ bytes, value.contents = some bytes → bytes.size = value.byteCount
  internal : value.contents.isSome = true → value.flags.isExternal = false

/-- A tensor of codes has parameters that describe them. -/
theorem Value.Sound.exists_quantization {value : Value} (sound : value.Sound)
    (coded : value.element.isQuantized = true) :
    ∃ given, value.quantization = some given ∧ given.validate value.element = .ok () := by
  have present := sound.quantized
  rw [coded] at present
  obtain ⟨given, found⟩ := Option.isSome_iff_exists.mp present
  exact ⟨given, found, sound.valid given found⟩

namespace Graph

/-- The tables of a graph agree with each other. -/
structure WellFormed (graph : Graph) : Prop where
  reserved : graph.externalCount ≤ graph.values.length
  value_id : ∀ {id : Nat} {value}, graph.value? id = some value → value.id = id
  node_id : ∀ {index : Nat} {node}, graph.node? index = some node → node.id = index
  output : ∀ {index : Nat} {node}, graph.node? index = some node →
    ∃ output, node.outputs = [output] ∧ output ∉ node.inputs
  operand : ∀ {index : Nat} {node}, graph.node? index = some node →
    ∀ id ∈ node.inputs ++ node.outputs,
      ∃ value, graph.value? id = some value ∧ value.isDense = true
  producer_iff : ∀ {id : Nat} {value}, graph.value? id = some value → ∀ index : Nat,
    value.producer = some index ↔ ∃ node, graph.node? index = some node ∧ id ∈ node.outputs
  sorted : ∀ {id : Nat} {value}, graph.value? id = some value →
    value.consumers.Pairwise (· < ·)
  consumer_iff : ∀ {id : Nat} {value}, graph.value? id = some value → ∀ index : Nat,
    index ∈ value.consumers ↔ ∃ node, graph.node? index = some node ∧ id ∈ node.inputs
  producer_lt : ∀ {id : Nat} {value}, graph.value? id = some value →
    ∀ producer consumer : Nat, value.producer = some producer → consumer ∈ value.consumers →
      producer < consumer
  unproduced : ∀ {id : Nat} {value}, graph.value? id = some value →
    value.contents.isSome = true → value.producer = none
  sound : ∀ {id : Nat} {value}, graph.value? id = some value → value.isDense = true →
    value.Sound
  placeholder : ∀ {id : Nat} {value}, graph.value? id = some value → value.isDense = false →
    value = Value.placeholder id ∧ id < graph.externalCount

theorem describedValue_sound {graph after : Graph} {spec : TensorSpec}
    {quantization : Option Quantization} {id : Nat}
    (placed : Placed graph spec quantization id after)
    (quantized : quantization.isSome = spec.element.isQuantized)
    (valid : ∀ given, quantization = some given → given.validate spec.element = .ok ()) :
    (describedValue spec quantization id).Sound where
  rank := placed.rank
  quantized := quantized
  valid := valid
  filled := by
    intro bytes given
    have checked := placed.contents
    change spec.contents = some bytes at given
    simp only [checkContents, given] at checked
    split at checked
    · cases checked
    · rename_i fills
      exact not_not.mp fills
  internal := by
    intro static
    have checked := placed.contents
    change spec.contents.isSome = true at static
    obtain ⟨bytes, given⟩ := Option.isSome_iff_exists.mp static
    simp only [checkContents, given] at checked
    split at checked
    · cases checked
    · split at checked
      · cases checked
      · rename_i internal
        exact Bool.not_eq_true _ ▸ internal

theorem withExternalValues_value? (count id : Nat) :
    (withExternalValues count).value? id =
      if id < count then some (Value.placeholder id) else none := by
  unfold withExternalValues value?
  by_cases inside : id < count
  · simp [inside]
  · simp [inside]

/-- The tables of a fresh graph hold reserved places only. -/
theorem wellFormed_withExternalValues (count : Nat) : (withExternalValues count).WellFormed := by
  have reservedOnly : ∀ {id : Nat} {value}, (withExternalValues count).value? id = some value →
      value = Value.placeholder id ∧ id < count := by
    intro id value found
    rw [withExternalValues_value?] at found
    split at found
    · exact ⟨(Option.some.inj found).symm, by assumption⟩
    · cases found
  have noNode : ∀ {index : Nat} {node}, (withExternalValues count).node? index ≠ some node := by
    intro index node found
    simp [withExternalValues, node?] at found
  constructor
  case reserved => simp [withExternalValues]
  case value_id =>
    intro id value found
    rw [(reservedOnly found).1]
    rfl
  case placeholder => exact fun found _ => reservedOnly found
  case sound =>
    intro id value found described
    rw [(reservedOnly found).1] at described
    cases described
  case producer_iff =>
    intro id value found index
    rw [(reservedOnly found).1]
    simp [Value.placeholder, noNode]
  case consumer_iff =>
    intro id value found index
    rw [(reservedOnly found).1]
    simp [Value.placeholder, noNode]
  case sorted =>
    intro id value found
    rw [(reservedOnly found).1]
    exact List.Pairwise.nil
  case producer_lt =>
    intro id value found producer consumer produced
    rw [(reservedOnly found).1] at produced
    cases produced
  case unproduced =>
    intro id value found static
    rw [(reservedOnly found).1]
    rfl
  all_goals exact fun found => absurd found noNode

namespace WellFormed

variable {graph after : Graph}

/-- No node uses a place that is not described. -/
theorem unused (wellFormed : graph.WellFormed) {id index : Nat} {node : Node}
    (free : ∀ value, graph.value? id = some value → value.isDense = false)
    (found : graph.node? index = some node) : id ∉ node.inputs ++ node.outputs := by
  intro used
  obtain ⟨value, foundValue, described⟩ := wellFormed.operand found id used
  simp [free value foundValue] at described

/-- A definition of a tensor changes one place, which no node uses. -/
theorem placed (wellFormed : graph.WellFormed) {spec : TensorSpec}
    {quantization : Option Quantization} {id : Nat}
    (placed : Placed graph spec quantization id after)
    (quantized : quantization.isSome = spec.element.isQuantized)
    (valid : ∀ given, quantization = some given → given.validate spec.element = .ok ()) :
    after.WellFormed := by
  have look := placed.value?_eq wellFormed.reserved
  have sameNodes : ∀ index : Nat, after.node? index = graph.node? index := by
    intro index
    unfold node?
    rw [placed.nodes_eq]
  have unused : ∀ {index : Nat} {node}, graph.node? index = some node →
      id ∉ node.inputs ++ node.outputs :=
    fun found => wellFormed.unused (fun _ => placed.free) found
  -- a value of the new table is the new one, which no node uses, or an old one
  have either : ∀ {other : Nat} {value}, after.value? other = some value →
      (other = id ∧ value = describedValue spec quantization id) ∨
        graph.value? other = some value := by
    intro other value found
    rw [look] at found
    split at found
    · exact .inl ⟨by assumption, (Option.some.inj found).symm⟩
    · exact .inr found
  constructor
  case reserved =>
    rw [placed.externalCount_eq]
    exact Nat.le_trans wellFormed.reserved placed.length_le
  case value_id =>
    intro other value found
    rcases either found with ⟨same, rfl⟩ | old
    · exact same.symm
    · exact wellFormed.value_id old
  case node_id =>
    intro index node found
    exact wellFormed.node_id (sameNodes index ▸ found)
  case output =>
    intro index node found
    exact wellFormed.output (sameNodes index ▸ found)
  case operand =>
    intro index node found other used
    rw [sameNodes] at found
    have different : other ≠ id := fun same => unused found (same ▸ used)
    rw [look, if_neg different]
    exact wellFormed.operand found other used
  case producer_iff =>
    intro other value found index
    simp only [sameNodes]
    rcases either found with ⟨rfl, rfl⟩ | old
    · constructor
      · intro impossible
        cases impossible
      · rintro ⟨node, foundNode, written⟩
        exact absurd (List.mem_append_right _ written) (unused foundNode)
    · exact wellFormed.producer_iff old index
  case sorted =>
    intro other value found
    rcases either found with ⟨_, rfl⟩ | old
    · exact List.Pairwise.nil
    · exact wellFormed.sorted old
  case consumer_iff =>
    intro other value found index
    simp only [sameNodes]
    rcases either found with ⟨rfl, rfl⟩ | old
    · constructor
      · intro impossible
        cases impossible
      · rintro ⟨node, foundNode, read⟩
        exact absurd (List.mem_append_left _ read) (unused foundNode)
    · exact wellFormed.consumer_iff old index
  case producer_lt =>
    intro other value found producer consumer produced read
    rcases either found with ⟨_, rfl⟩ | old
    · cases produced
    · exact wellFormed.producer_lt old producer consumer produced read
  case unproduced =>
    intro other value found static
    rcases either found with ⟨_, rfl⟩ | old
    · rfl
    · exact wellFormed.unproduced old static
  case sound =>
    intro other value found described
    rcases either found with ⟨_, rfl⟩ | old
    · exact describedValue_sound placed quantized valid
    · exact wellFormed.sound old described
  case placeholder =>
    intro other value found undescribed
    rcases either found with ⟨_, rfl⟩ | old
    · cases undescribed
    · rw [placed.externalCount_eq]
      exact wellFormed.placeholder old undescribed

/-- The output of an accepted node is described, no input, unread, not produced and not static. -/
theorem freshOutput (wellFormed : graph.WellFormed) {node : Node}
    (appended : Appended graph node after) :
    ∃ output value, node.outputs = [output] ∧ output ∉ node.inputs ∧
      graph.value? output = some value ∧ value.isDense = true ∧ value.producer = none ∧
      value.consumers = [] ∧ value.contents = none := by
  obtain ⟨_, arity, _, _, value, found, writable, _⟩ := computeOf_eq_ok_iff.mp appended.admission
  obtain ⟨output, outputs⟩ :=
    List.length_eq_one_iff.mp (OpKind.checkArity_eq_ok_iff.mp arity).2
  rw [outputs, List.headD_cons] at found
  obtain ⟨found, described⟩ := dense_eq_ok_iff.mp found
  obtain ⟨notRead, unproduced, unread, notStatic⟩ := Value.checkOutput_eq_ok_iff.mp writable
  rw [wellFormed.value_id found] at notRead
  exact ⟨output, value, outputs, notRead, found, described, unproduced, unread, notStatic⟩

theorem describedInput {node : Node} (appended : Appended graph node after) {id : Nat}
    (read : id ∈ node.inputs) :
    ∃ value, graph.value? id = some value ∧ value.isDense = true := by
  obtain ⟨_, _, _, found, _⟩ := computeOf_eq_ok_iff.mp appended.admission
  obtain ⟨value, _, foundValue⟩ := exists_of_mem_mapM found read
  exact ⟨value, dense_eq_ok_iff.mp foundValue⟩

/-- The readers noted at a value are earlier nodes. -/
theorem consumer_lt (wellFormed : graph.WellFormed) {id consumer : Nat} {value : Value}
    (found : graph.value? id = some value) (read : consumer ∈ value.consumers) :
    consumer < graph.nodes.length := by
  obtain ⟨_, foundNode, _⟩ := (wellFormed.consumer_iff found consumer).mp read
  exact (List.getElem?_eq_some_iff.mp foundNode).1

/-- The producer noted at a value is an earlier node. -/
theorem produced_lt (wellFormed : graph.WellFormed) {id producer : Nat} {value : Value}
    (found : graph.value? id = some value) (produced : value.producer = some producer) :
    producer < graph.nodes.length := by
  obtain ⟨_, foundNode, _⟩ := (wellFormed.producer_iff found producer).mp produced
  exact (List.getElem?_eq_some_iff.mp foundNode).1

section Addition

variable {node : Node} {id : Nat} {old : Value}

/-- What an accepted node writes is described, is not read or produced yet, and is not static. -/
theorem fresh_of_written (wellFormed : graph.WellFormed) (appended : Appended graph node after)
    (found : graph.value? id = some old) (written : id ∈ node.outputs) :
    id ∉ node.inputs ∧ old.isDense = true ∧ old.producer = none ∧ old.consumers = [] ∧
      old.contents = none := by
  obtain ⟨output, value, outputs, notRead, foundOutput, fresh⟩ := wellFormed.freshOutput appended
  rw [outputs, List.mem_singleton] at written
  subst written
  rw [foundOutput, Option.some.injEq] at found
  subst found
  exact ⟨notRead, fresh⟩

/-- Nodes find described values at all operands, the new node as well. -/
theorem appended_operand (wellFormed : graph.WellFormed) (appended : Appended graph node after)
    {index : Nat} {other : Node} (found : after.node? index = some other)
    (used : id ∈ other.inputs ++ other.outputs) :
    ∃ value, graph.value? id = some value ∧ value.isDense = true := by
  rw [appended.node?_eq] at found
  split at found
  · cases found
    rcases List.mem_append.mp used with read | written
    · exact describedInput appended read
    · obtain ⟨output, value, outputs, _, foundOutput, described, _⟩ :=
        wellFormed.freshOutput appended
      rw [outputs, List.mem_singleton] at written
      rw [written]
      exact ⟨value, foundOutput, described⟩
  · exact wellFormed.operand found id used

theorem tied_producer_iff (wellFormed : graph.WellFormed) (appended : Appended graph node after)
    (found : graph.value? id = some old) (index : Nat) :
    (tied node id old).producer = some index ↔
      ∃ other, after.node? index = some other ∧ id ∈ other.outputs := by
  have before := wellFormed.producer_iff found index
  have noNode : graph.node? graph.nodes.length = none := List.getElem?_eq_none (Nat.le_refl _)
  rw [appended.node?_eq]
  unfold tied
  by_cases written : id ∈ node.outputs
  · -- no old node writes the value, since it had no producer
    obtain ⟨_, _, unproduced, _⟩ := wellFormed.fresh_of_written appended found written
    rw [unproduced] at before
    simp only [written, if_true, appended.id_eq, Option.some.injEq]
    constructor
    · rintro rfl
      exact ⟨node, by simp, written⟩
    · rintro ⟨other, foundOther, otherWritten⟩
      split at foundOther
      · exact Eq.symm (by assumption)
      · exact absurd (before.mpr ⟨other, foundOther, otherWritten⟩) (by simp)
  · simp only [written, if_false]
    rw [before]
    by_cases last : index = graph.nodes.length
    · rw [if_pos last, last, noNode]
      simp [written]
    · rw [if_neg last]

theorem tied_sorted (wellFormed : graph.WellFormed) (appended : Appended graph node after)
    (found : graph.value? id = some old) : (tied node id old).consumers.Pairwise (· < ·) := by
  unfold tied
  dsimp only
  split
  · rw [List.pairwise_append]
    refine ⟨wellFormed.sorted found, List.pairwise_singleton _ _, ?_⟩
    intro consumer noted last isLast
    rw [List.mem_singleton.mp isLast, appended.id_eq]
    exact wellFormed.consumer_lt found noted
  · exact wellFormed.sorted found

theorem tied_consumer_iff (wellFormed : graph.WellFormed) (appended : Appended graph node after)
    (found : graph.value? id = some old) (index : Nat) :
    index ∈ (tied node id old).consumers ↔
      ∃ other, after.node? index = some other ∧ id ∈ other.inputs := by
  have before := wellFormed.consumer_iff found index
  have noNode : graph.node? graph.nodes.length = none := List.getElem?_eq_none (Nat.le_refl _)
  have unnoted : graph.nodes.length ∉ old.consumers := by
    intro noted
    have early := wellFormed.consumer_lt found noted
    omega
  rw [appended.node?_eq]
  unfold tied
  simp only [appended.id_eq, unnoted, not_false_eq_true, and_true]
  by_cases last : index = graph.nodes.length
  · rw [if_pos last]
    by_cases read : id ∈ node.inputs
    · simp [read, last]
    · rw [last, noNode] at before
      rw [if_neg read, last, before]
      simp [read]
  · rw [if_neg last]
    by_cases read : id ∈ node.inputs
    · rw [if_pos read, List.mem_append, List.mem_singleton]
      simp only [last, or_false]
      exact before
    · rw [if_neg read]
      exact before

theorem tied_producer_lt (wellFormed : graph.WellFormed) (appended : Appended graph node after)
    (found : graph.value? id = some old) {producer consumer : Nat}
    (produced : (tied node id old).producer = some producer)
    (read : consumer ∈ (tied node id old).consumers) : producer < consumer := by
  unfold tied at produced read
  dsimp only at produced read
  by_cases written : id ∈ node.outputs
  · -- the output is unread, and the new node does not read it either
    obtain ⟨notRead, _, _, unread, _⟩ := wellFormed.fresh_of_written appended found written
    rw [if_neg fun both => notRead both.1, unread] at read
    cases read
  · rw [if_neg written] at produced
    split at read
    · rcases List.mem_append.mp read with noted | last
      · exact wellFormed.producer_lt found producer consumer produced noted
      · rw [List.mem_singleton.mp last, appended.id_eq]
        exact wellFormed.produced_lt found produced
    · exact wellFormed.producer_lt found producer consumer produced read

theorem tied_unproduced (wellFormed : graph.WellFormed) (appended : Appended graph node after)
    (found : graph.value? id = some old) (static : old.contents.isSome = true) :
    (tied node id old).producer = none := by
  have notWritten : id ∉ node.outputs := by
    intro written
    obtain ⟨_, _, _, _, notStatic⟩ := wellFormed.fresh_of_written appended found written
    rw [notStatic] at static
    cases static
  unfold tied
  simp only [notWritten, if_false]
  exact wellFormed.unproduced found static

/-- A place that is not described is no operand of the new node. -/
theorem tied_eq_self (wellFormed : graph.WellFormed) (appended : Appended graph node after)
    (found : graph.value? id = some old) (undescribed : old.isDense = false) :
    tied node id old = old := by
  have notRead : id ∉ node.inputs := by
    intro read
    obtain ⟨other, foundOther, described⟩ := describedInput appended read
    rw [found, Option.some.injEq] at foundOther
    rw [← foundOther, undescribed] at described
    cases described
  have notWritten : id ∉ node.outputs := by
    intro written
    obtain ⟨_, described, _⟩ := wellFormed.fresh_of_written appended found written
    rw [undescribed] at described
    cases described
  unfold tied
  simp only [notRead, notWritten, if_false, false_and]

/-- An accepted node is noted at its operands, and its output has no reader yet. -/
theorem appended (wellFormed : graph.WellFormed) {node : Node}
    (appended : Appended graph node after) : after.WellFormed := by
  constructor
  case reserved =>
    rw [appended.changed, length_appendNode]
    exact wellFormed.reserved
  case value_id =>
    intro id value found
    obtain ⟨old, foundOld, rfl⟩ := appended.exists_tied found
    have sameId : old.id = id := wellFormed.value_id foundOld
    exact sameId
  case node_id =>
    intro index other found
    rw [appended.node?_eq] at found
    split at found
    · cases found
      rw [appended.id_eq]
      exact Eq.symm (by assumption)
    · exact wellFormed.node_id found
  case output =>
    intro index other found
    rw [appended.node?_eq] at found
    split at found
    · cases found
      obtain ⟨output, _, outputs, notRead, _⟩ := wellFormed.freshOutput appended
      exact ⟨output, outputs, notRead⟩
    · exact wellFormed.output found
  case operand =>
    intro index other found id used
    obtain ⟨value, foundValue, described⟩ := wellFormed.appended_operand appended found used
    refine ⟨tied node id value, ?_, described⟩
    rw [appended.changed, value?_appendNode, foundValue]
    rfl
  case producer_iff =>
    intro id value found index
    obtain ⟨old, foundOld, rfl⟩ := appended.exists_tied found
    exact wellFormed.tied_producer_iff appended foundOld index
  case sorted =>
    intro id value found
    obtain ⟨old, foundOld, rfl⟩ := appended.exists_tied found
    exact wellFormed.tied_sorted appended foundOld
  case consumer_iff =>
    intro id value found index
    obtain ⟨old, foundOld, rfl⟩ := appended.exists_tied found
    exact wellFormed.tied_consumer_iff appended foundOld index
  case producer_lt =>
    intro id value found producer consumer produced read
    obtain ⟨old, foundOld, rfl⟩ := appended.exists_tied found
    exact wellFormed.tied_producer_lt appended foundOld produced read
  case unproduced =>
    intro id value found static
    obtain ⟨old, foundOld, rfl⟩ := appended.exists_tied found
    exact wellFormed.tied_unproduced appended foundOld static
  case sound =>
    intro id value found described
    obtain ⟨old, foundOld, rfl⟩ := appended.exists_tied found
    have sound := wellFormed.sound foundOld described
    exact ⟨sound.rank, sound.quantized, sound.valid, sound.filled, sound.internal⟩
  case placeholder =>
    intro id value found undescribed
    obtain ⟨old, foundOld, rfl⟩ := appended.exists_tied found
    rw [wellFormed.tied_eq_self appended foundOld undescribed, appended.changed]
    exact wellFormed.placeholder foundOld undescribed

end Addition

theorem closed (wellFormed : graph.WellFormed) : graph.closed.WellFormed :=
  ⟨wellFormed.reserved, wellFormed.value_id, wellFormed.node_id, wellFormed.output,
    wellFormed.operand, wellFormed.producer_iff, wellFormed.sorted, wellFormed.consumer_iff,
    wellFormed.producer_lt, wellFormed.unproduced, wellFormed.sound, wellFormed.placeholder⟩

/-- Every accepted call keeps the tables in agreement. -/
theorem answered (wellFormed : graph.WellFormed) {call : BuildCall} {reply : BuildReply}
    (answered : graph.answer call = .ok (reply, after)) : after.WellFormed := by
  rcases answer_cases answered with
    ⟨spec, quantization, id, _, placed, quantized, valid, _⟩ | ⟨node, _, appended⟩ | ⟨_, rfl⟩
  · exact wellFormed.placed placed quantized valid
  · exact wellFormed.appended appended
  · exact wellFormed.closed

end WellFormed

/-- The tables agree after every sequence of calls. -/
theorem wellFormed_afterCalls (count : Nat) (calls : List BuildCall) :
    ((withExternalValues count).afterCalls calls).WellFormed :=
  afterCalls_induction (wellFormed_withExternalValues count)
    fun _ _ _ _ _ wellFormed answered => wellFormed.answered answered

/-- Nodes in an order in which each of them can run: no node computes what itself or an earlier one
uses. -/
structure Ordered (nodes : List Node) : Prop where
  single : ∀ node ∈ nodes, ∃ output, node.outputs = [output] ∧ output ∉ node.inputs
  fresh : nodes.Pairwise fun earlier later =>
    ∀ output ∈ later.outputs, output ∉ earlier.inputs ∧ output ∉ earlier.outputs

/-- The order of definition is such an order. -/
theorem WellFormed.ordered {graph : Graph} (wellFormed : graph.WellFormed) :
    Ordered graph.nodes where
  single := by
    intro node listed
    obtain ⟨index, inside, found⟩ := List.getElem_of_mem listed
    exact wellFormed.output (List.getElem?_eq_some_iff.mpr ⟨inside, found⟩)
  fresh := by
    rw [List.pairwise_iff_getElem]
    intro first second insideFirst insideSecond before output written
    have foundFirst : graph.node? first = some graph.nodes[first] :=
      List.getElem?_eq_getElem insideFirst
    have foundSecond : graph.node? second = some graph.nodes[second] :=
      List.getElem?_eq_getElem insideSecond
    obtain ⟨value, found, _⟩ := wellFormed.operand foundSecond output
      (List.mem_append_right _ written)
    have produced := (wellFormed.producer_iff found second).mpr ⟨_, foundSecond, written⟩
    constructor
    · intro read
      have noted := (wellFormed.consumer_iff found first).mpr ⟨_, foundFirst, read⟩
      have later := wellFormed.producer_lt found second first produced noted
      omega
    · intro writtenFirst
      have producedFirst := (wellFormed.producer_iff found first).mpr ⟨_, foundFirst, writtenFirst⟩
      have same : second = first := Option.some.inj (produced.symm.trans producedFirst)
      omega

theorem externalCount_afterCalls (count : Nat) (calls : List BuildCall) :
    ((withExternalValues count).afterCalls calls).externalCount = count := by
  let keeps : Graph → Prop := fun graph => graph.externalCount = count
  have start : keeps (withExternalValues count) := rfl
  refine afterCalls_induction start ?_
  intro current call _ reply after kept answered
  show after.externalCount = count
  rcases answer_cases answered with
    ⟨spec, quantization, id, _, placed, _⟩ | ⟨node, _, appended⟩ | ⟨_, rfl⟩
  · rw [placed.externalCount_eq, kept]
  · rw [appended.changed]
    exact kept
  · exact kept

/-- The agreement of the tables, clause by clause, after every sequence of accepted and refused
calls in which no size product overflows a word. Producers and readers are exactly those of the
nodes, each reader comes after the producer, and every described tensor is sound on its own: static
contents fill the shape, and the product of words that they are checked against is exact. -/
theorem tables_agree_afterCalls (count : Nat) (calls : List BuildCall)
    (sized : ∀ call ∈ calls, call.SizesFit) :
    let graph := (withExternalValues count).afterCalls calls
    (∀ (index : Nat) (node : Node), graph.node? index = some node →
      node.id = index ∧ (∃ output, node.outputs = [output] ∧ output ∉ node.inputs) ∧
      ∀ id ∈ node.inputs ++ node.outputs,
        ∃ value, graph.value? id = some value ∧ value.isDense = true) ∧
    (∀ (id : Nat) (value : Value), graph.value? id = some value →
      value.id = id ∧
      (∀ index, value.producer = some index ↔
        ∃ node, graph.node? index = some node ∧ id ∈ node.outputs) ∧
      (∀ (first second : Nat) (firstNode secondNode : Node),
        graph.node? first = some firstNode → graph.node? second = some secondNode →
        id ∈ firstNode.outputs → id ∈ secondNode.outputs → first = second) ∧
      value.consumers.Pairwise (· < ·) ∧
      (∀ index, index ∈ value.consumers ↔
        ∃ node, graph.node? index = some node ∧ id ∈ node.inputs) ∧
      (∀ producer consumer : Nat, value.producer = some producer →
        consumer ∈ value.consumers → producer < consumer) ∧
      (∀ bytes, value.contents = some bytes → value.producer = none ∧
        bytes.size = value.shape.elementCount * value.element.width ∧
        value.shape.wordSize value.element = .ok bytes.size) ∧
      (value.quantization.isSome = true ↔
        value.isDense = true ∧ value.element.isQuantized = true) ∧
      (∀ given, value.quantization = some given → given.validate value.element = .ok ()) ∧
      value.shape.length ≤ 6 ∧
      (value.isDense = false → value = Value.placeholder id ∧ id < count)) := by
  intro graph
  have wellFormed : graph.WellFormed := wellFormed_afterCalls count calls
  refine ⟨?_, ?_⟩
  · intro index node found
    exact ⟨wellFormed.node_id found, wellFormed.output found, wellFormed.operand found⟩
  · intro id value found
    have reserved : value.isDense = false → value = Value.placeholder id ∧ id < count := by
      intro undescribed
      have place := wellFormed.placeholder found undescribed
      rwa [externalCount_afterCalls] at place
    refine ⟨wellFormed.value_id found, wellFormed.producer_iff found, ?_,
      wellFormed.sorted found, wellFormed.consumer_iff found, wellFormed.producer_lt found,
      ?_, ?_, ?_, ?_, reserved⟩
    · intro first second firstNode secondNode foundFirst foundSecond firstWrites secondWrites
      have producedFirst :=
        (wellFormed.producer_iff found first).mpr ⟨firstNode, foundFirst, firstWrites⟩
      have producedSecond :=
        (wellFormed.producer_iff found second).mpr ⟨secondNode, foundSecond, secondWrites⟩
      exact Option.some.inj (producedFirst.symm.trans producedSecond)
    · intro bytes given
      have static : value.contents.isSome = true := by rw [given]; rfl
      have filled : bytes.size = value.shape.elementCount * value.element.width := by
        cases described : value.isDense with
        | true => exact (wellFormed.sound found described).filled bytes given
        | false =>
            rw [(reserved described).1] at given
            cases given
      have fits := sizesFit_afterCalls count sized value (List.mem_of_getElem? found)
      rw [given] at fits
      exact ⟨wellFormed.unproduced found static, filled, fits.size_eq filled⟩
    · cases described : value.isDense with
      | true => simp [(wellFormed.sound found described).quantized]
      | false => simp [(reserved described).1, Value.placeholder]
    · intro given same
      cases described : value.isDense with
      | true => exact (wellFormed.sound found described).valid given same
      | false =>
          rw [(reserved described).1] at same
          cases same
    · cases described : value.isDense with
      | true => exact (wellFormed.sound found described).rank
      | false => simp [(reserved described).1, Value.placeholder]

/-- A product with a static filter. The second of its static tensors is refused, since one byte does
not fill two numbers. -/
def filterCalls : List BuildCall :=
  [.tensor ⟨.float32, [2, 2], none, some 0, .externalInput⟩,
    .tensor ⟨.float32, [3, 2], some (Array.replicate 24 0), none, .none⟩,
    .tensor ⟨.float32, [2], some #[0], none, .none⟩,
    .tensor ⟨.float32, [2, 3], none, none, .none⟩,
    .node .fullyConnected [0, 1] [2]
      (.outputRange Numeric.Binary32.negativeInfinity Numeric.Binary32.infinity) 0]

theorem tables_agree_afterCalls_filter :
    let graph := (withExternalValues 1).afterCalls filterCalls
    (∀ call ∈ filterCalls, call.SizesFit) ∧
      ∃ filter bytes, graph.value? 1 = some filter ∧ filter.contents = some bytes ∧
        filter.producer = none ∧ filter.consumers = [0] ∧
        filter.shape.wordSize filter.element = .ok bytes.size := by
  intro graph
  have sized : ∀ call ∈ filterCalls, call.SizesFit := by decide
  have found : graph.value? 1 = some ⟨1, true, .float32, [3, 2], none, .none,
      some (Array.replicate 24 0), none, [0]⟩ := rfl
  obtain ⟨_, values⟩ := tables_agree_afterCalls 1 filterCalls sized
  obtain ⟨_, _, _, _, _, _, static, _⟩ := values 1 _ found
  obtain ⟨unproduced, _, exact⟩ := static _ rfl
  exact ⟨sized, _, _, found, rfl, unproduced, rfl, exact⟩

end Graph

end TensorEngine
