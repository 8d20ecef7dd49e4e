import TensorEngine.Kernel.UnaryFunction
import TensorEngine.Proofs.Cache.Fingerprint
import TensorEngine.Proofs.Cache.Keeping
import TensorEngine.Proofs.Graph.Admission

/-!
Contract: a shared cache of lookup tables gives each function its own table.

Owns:
- `TableKey.TableOf`, the function and the parameters that a key of the cache tells;
- the theorem that a key tells only one function, one storage type and one pair of parameters;
- `TabulatedByKey`, a cache whose entries are filled from what their keys tell, and the theorem that
  a table from such a cache is the one that would be filled.

Does not own: which factories use the cache.

A key holds neither the function nor the storage type. The kind of the node and one word tell the
function, because a clamp is never tabulated; the compute type tells the storage type.
-/

namespace TensorEngine

open Making

/-! ## What a key tells -/

/-- The function of a kind, a clamp excepted, follows from its word. -/
theorem UnaryFunction.ofNode_unique {kind : OpKind} {params others : OpParams}
    {function another : UnaryFunction} (notClamp : kind ≠ .clamp)
    (chosen : UnaryFunction.ofNode kind params = .ok function)
    (chosenToo : UnaryFunction.ofNode kind others = .ok another)
    (sameWord : function.paramWord = another.paramWord) : function = another := by
  cases kind with
  | leakyRelu =>
      cases params with
      | negativeSlope slope =>
          cases others with
          | negativeSlope other =>
              cases chosen
              cases chosenToo
              exact congrArg leakyRelu (toBits_injective sameWord)
          | _ => cases chosenToo
      | _ => cases chosen
  | clamp => exact absurd rfl notClamp
  | _ =>
      cases chosen <;> cases chosenToo <;> rfl

namespace TableKey

/-- A key is that of the table of a function between two quantizations, over the codes of a storage
type. -/
structure TableOf (key : TableKey) (function : UnaryFunction) (element : ElementType)
    (input output : Quantization) : Prop where
  chosen : ∃ params, UnaryFunction.ofNode key.kind params = .ok function
  notClamp : key.kind ≠ .clamp
  computed : ComputeType.ofElement? element = some key.compute
  params_eq : key.params = input.words ++ output.words ++ [function.paramWord]

/-- A key tells all that its table is filled from. -/
theorem TableOf.unique {key : TableKey} {function another : UnaryFunction}
    {element other : ElementType} {input output otherInput otherOutput : Quantization}
    (first : key.TableOf function element input output)
    (second : key.TableOf another other otherInput otherOutput) :
    function = another ∧ element = other ∧ input = otherInput ∧ output = otherOutput := by
  have words := first.params_eq.symm.trans second.params_eq
  obtain ⟨scales, word⟩ := List.append_inj words rfl
  obtain ⟨sameInput, sameOutput⟩ := List.append_inj scales rfl
  obtain ⟨params, chosen⟩ := first.chosen
  obtain ⟨others, chosenToo⟩ := second.chosen
  refine ⟨UnaryFunction.ofNode_unique first.notClamp chosen chosenToo
      (List.head_eq_of_cons_eq word), ?_,
    Quantization.words_injective sameInput, Quantization.words_injective sameOutput⟩
  have same := first.computed.trans second.computed.symm
  cases element <;> cases other <;> first | rfl | cases same

end TableKey

/-! ## Caches of tables -/

/-- Every entry of a cache is the table that its key tells. -/
def TabulatedByKey (cache : Option CodeCache) : Prop :=
  ∀ code, cache = some code → ∀ key table, code.peek? key = some table →
    ∃ function element input output, key.TableOf function element input output ∧
      function.tabulate element input output = .ok table

/-- Without a cache, and in an empty one, there is no wrong table. -/
theorem tabulatedByKey_of_empty {cache : Option CodeCache}
    (empty : ∀ code, cache = some code → code.entries = []) : TabulatedByKey cache := by
  intro code present key table found
  unfold PublishOnce.peek? at found
  rw [empty code present] at found
  cases found

/-- What a cache of tables gives for a key is what would be filled for it. -/
theorem table_keeps {key : TableKey} {function : UnaryFunction} {element : ElementType}
    {input output : Quantization} (own : key.TableOf function element input output) :
    (Workshop.table key fun _ => function.tabulate element input output).Keeps
      (fun _ code => TabulatedByKey code)
      (fun table => function.tabulate element input output = .ok table) := by
  apply Keeps.table
  case hit =>
    intro _ cache table byKey found
    constructor
    · intro code same
      cases same
      exact byKey cache rfl
    · obtain ⟨another, other, otherInput, otherOutput, told, filled⟩ :=
        byKey cache rfl _ table found
      obtain ⟨rfl, rfl, rfl, rfl⟩ := own.unique told
      exact filled
  case miss =>
    intro _ cache table byKey filled code grown other published found
    cases grown
    rw [PublishOnce.peek?_append, Option.or_eq_some_iff] at found
    rcases found with before | ⟨_, now⟩
    · exact byKey cache rfl other published before
    · obtain ⟨rfl, stored⟩ := Option.ite_none_right_eq_some.mp now
      rw [← Option.some.inj stored]
      exact ⟨function, element, input, output, own, filled⟩
  case made => exact fun _ filled => filled

end TensorEngine
