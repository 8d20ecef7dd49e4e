import Mathlib.Data.List.Forall2
import TensorEngine.Kernel.Operator

/-!
Contract: when a computation that may fail has a result.

Owns:
- the inversion of sequenced, mapped and guarded computations;
- the inversion of a computation repeated over a list or for each index;
- `Outcome.FailsOnly`, a bound on the faults of a computation;
- when an element or a slice of an array is there.

Does not own: which computations fail in the library.
-/

namespace TensorEngine

/-! ## Computations that may fail -/

section Inversion

variable {ε δ α β : Type}

instance decidableExistsOk (computation : Except ε α) :
    Decidable (∃ result, computation = .ok result) :=
  match computation with
  | .ok result => .isTrue ⟨result, rfl⟩
  | .error _ => .isFalse nofun

theorem bind_eq_ok_iff {computation : Except ε α} {next : α → Except ε β} {result : β} :
    computation >>= next = .ok result ↔
      ∃ value, computation = .ok value ∧ next value = .ok result := by
  cases computation <;> simp [bind, Except.bind]

theorem map_eq_ok_iff {computation : Except ε α} {function : α → β} {result : β} :
    function <$> computation = .ok result ↔
      ∃ value, computation = .ok value ∧ function value = result := by
  cases computation <;> simp [Functor.map, Except.map]

theorem pure_eq_ok_iff {value result : α} :
    (pure value : Except ε α) = .ok result ↔ value = result := by
  simp [pure, Except.pure]

theorem mapError_eq_ok_iff {computation : Except ε α} {rename : ε → δ} {result : α} :
    computation.mapError rename = .ok result ↔ computation = .ok result := by
  cases computation <;> simp [Except.mapError]

/-- A guard that throws lets the rest run exactly when its condition fails. -/
theorem guarded_eq_ok_iff {condition : Prop} [Decidable condition] {fault : ε}
    {skipped : PUnit → Except ε α} {rest : Except ε α} {result : α} :
    (if condition then (throw fault : Except ε PUnit) >>= skipped else rest) = .ok result ↔
      ¬ condition ∧ rest = .ok result := by
  by_cases holds : condition
  · simp [holds, throw, throwThe, MonadExceptOf.throw, bind, Except.bind]
  · simp [holds]

theorem mapM_eq_ok_iff {elements : List α} {step : α → Except ε β} {results : List β} :
    elements.mapM step = .ok results ↔
      List.Forall₂ (fun element result => step element = .ok result) elements results := by
  induction elements generalizing results with
  | nil => cases results <;> simp [pure, Except.pure]
  | cons element elements inductionHypothesis =>
      rw [List.mapM_cons, bind_eq_ok_iff]
      simp only [bind_eq_ok_iff, pure_eq_ok_iff, inductionHypothesis]
      constructor
      · rintro ⟨result, ran, rest, restRan, rfl⟩
        exact .cons ran restRan
      · intro ran
        cases ran with
        | cons ran restRan => exact ⟨_, ran, _, restRan, rfl⟩

theorem mapM_congr {elements : List α} {step other : α → Except ε β}
    (same : ∀ element ∈ elements, step element = other element) :
    elements.mapM step = elements.mapM other := by
  induction elements with
  | nil => rfl
  | cons element elements inductionHypothesis =>
      rw [List.mapM_cons, List.mapM_cons, same element List.mem_cons_self,
        inductionHypothesis fun later listed => same later (List.mem_cons_of_mem _ listed)]

theorem forM_cons (element : α) (elements : List α) (check : α → Except ε Unit) :
    (element :: elements).forM check = check element >>= fun _ => elements.forM check := rfl

theorem forM_append (first second : List α) (check : α → Except ε Unit) :
    (first ++ second).forM check = first.forM check >>= fun _ => second.forM check := by
  simp only [List.forM_eq_forM, List.forM_append]

theorem forM_eq_ok_iff {elements : List α} {check : α → Except ε Unit} :
    elements.forM check = .ok () ↔ ∀ element ∈ elements, check element = .ok () := by
  induction elements with
  | nil => simp [pure, Except.pure]
  | cons element elements inductionHypothesis =>
      rw [forM_cons, bind_eq_ok_iff, List.forall_mem_cons, ← inductionHypothesis, exists_and_right]
      exact and_congr_left fun _ => ⟨fun ⟨(), passed⟩ => passed, fun passed => ⟨(), passed⟩⟩

theorem exists_of_forM_eq_error {elements : List α} {check : α → Except ε Unit} {fault : ε}
    (failed : elements.forM check = .error fault) :
    ∃ before element after, elements = before ++ element :: after ∧
      (∀ earlier ∈ before, check earlier = .ok ()) ∧ check element = .error fault := by
  induction elements with
  | nil => cases failed
  | cons head elements inductionHypothesis =>
      rw [forM_cons] at failed
      cases checked : check head with
      | error cause =>
          rw [checked] at failed
          cases failed
          exact ⟨[], head, elements, rfl, by simp, checked⟩
      | ok passed =>
          rw [checked] at failed
          obtain ⟨before, element, after, rfl, passes, fails⟩ := inductionHypothesis failed
          exact ⟨head :: before, element, after, rfl,
            List.forall_mem_cons.mpr ⟨checked, passes⟩, fails⟩

theorem forM_flatMap {parts : List β} {elements : β → List α} {check : α → Except ε Unit} :
    (parts.flatMap elements).forM check = parts.forM fun part => (elements part).forM check := by
  induction parts with
  | nil => rfl
  | cons part parts inductionHypothesis =>
      rw [List.flatMap_cons, forM_append, forM_cons, inductionHypothesis]

theorem forM_congr {elements : List α} {check other : α → Except ε Unit}
    (same : ∀ element ∈ elements, check element = other element) :
    elements.forM check = elements.forM other := by
  induction elements with
  | nil => rfl
  | cons element elements inductionHypothesis =>
      rw [forM_cons, forM_cons, same element List.mem_cons_self,
        inductionHypothesis fun later listed => same later (List.mem_cons_of_mem _ listed)]

theorem exists_of_mem_mapM {elements : List α} {step : α → Except ε β} {results : List β}
    (ran : elements.mapM step = .ok results) {element : α} (listed : element ∈ elements) :
    ∃ result ∈ results, step element = .ok result := by
  induction mapM_eq_ok_iff.mp ran with
  | nil => cases listed
  | cons ranHead _ inductionHypothesis =>
      rcases List.mem_cons.mp listed with rfl | later
      · exact ⟨_, List.mem_cons_self, ranHead⟩
      · obtain ⟨result, given, ranLater⟩ :=
          inductionHypothesis (mapM_eq_ok_iff.mpr (by assumption)) later
        exact ⟨result, List.mem_cons_of_mem _ given, ranLater⟩

theorem exists_of_forall₂_right {related : α → β → Prop} {elements : List α} {results : List β}
    (all : List.Forall₂ related elements results) {result : β} (listed : result ∈ results) :
    ∃ element ∈ elements, related element result := by
  induction all with
  | nil => cases listed
  | cons head _ inductionHypothesis =>
      rcases List.mem_cons.mp listed with rfl | later
      · exact ⟨_, List.mem_cons_self, head⟩
      · obtain ⟨element, given, holds⟩ := inductionHypothesis later
        exact ⟨element, List.mem_cons_of_mem _ given, holds⟩

/-- What stands at an index on the left is related to what stands there on the right. -/
theorem getElem?_of_forall₂ {related : α → β → Prop} {elements : List α} {results : List β}
    (all : List.Forall₂ related elements results) {index : Nat} {element : α}
    (found : elements[index]? = some element) :
    ∃ result, results[index]? = some result ∧ related element result := by
  induction all generalizing index with
  | nil => cases found
  | cons head _ inductionHypothesis =>
      cases index with
      | zero =>
          cases found
          exact ⟨_, rfl, head⟩
      | succ index => exact inductionHypothesis found

theorem exists_ofFnM {count : Nat} {element : Fin count → Except ε α}
    (each : ∀ index, ∃ value, element index = .ok value) :
    ∃ values, Vector.ofFnM element = .ok values := by
  induction count with
  | zero => exact ⟨#v[], Vector.ofFnM_zero⟩
  | succ count inductionHypothesis =>
      obtain ⟨values, ran⟩ := inductionHypothesis fun index => each index.castSucc
      obtain ⟨value, last⟩ := each (Fin.last count)
      refine ⟨values.push value, ?_⟩
      rw [Vector.ofFnM_succ, ran]
      show (element (Fin.last count) >>= fun value => pure (values.push value)) = _
      rw [last]
      rfl

theorem getElem_of_ofFnM {count : Nat} {element : Fin count → Except ε α} {values : Vector α count}
    (ran : Vector.ofFnM element = .ok values) (index : Fin count) :
    element index = .ok values[index] := by
  induction count with
  | zero => exact index.elim0
  | succ count inductionHypothesis =>
      rw [Vector.ofFnM_succ] at ran
      obtain ⟨front, ranFront, ran⟩ := bind_eq_ok_iff.mp ran
      obtain ⟨last, ranLast, ran⟩ := bind_eq_ok_iff.mp ran
      cases ran
      cases index using Fin.lastCases with
      | last => simpa using ranLast
      | cast earlier => simpa using inductionHypothesis ranFront earlier

end Inversion

/-- A loop over a range has a result when each pass keeps an invariant. -/
theorem exists_foldlM_range {ε β : Type} {count : Nat} {next : β → Nat → Except ε β}
    {holds : Nat → β → Prop} {start : β} (first : holds 0 start)
    (pass : ∀ index < count, ∀ state, holds index state →
      ∃ after, next state index = .ok after ∧ holds (index + 1) after) :
    ∃ last, (List.range count).foldlM next start = .ok last ∧ holds count last := by
  induction count with
  | zero => exact ⟨start, rfl, first⟩
  | succ count inductionHypothesis =>
      obtain ⟨state, ran, held⟩ := inductionHypothesis fun index inside => pass index (by omega)
      obtain ⟨after, ranLast, heldLast⟩ := pass count (Nat.lt_succ_self count) state held
      refine ⟨after, ?_, heldLast⟩
      rw [List.range_succ, List.foldlM_append, ran]
      show (next state count >>= fun after => [].foldlM next after) = _
      rw [ranLast]
      rfl

/-- A loop over a range whose passes all succeed is a loop without faults. -/
theorem foldlM_range_eq_foldl {ε β : Type} {count : Nat} {next : β → Nat → Except ε β}
    {pass : β → Nat → β}
    (each : ∀ index < count, ∀ state, next state index = .ok (pass state index))
    (start : β) :
    (List.range count).foldlM next start = .ok ((List.range count).foldl pass start) := by
  induction count with
  | zero => rfl
  | succ count inductionHypothesis =>
      rw [List.range_succ, List.foldlM_append, List.foldl_append,
        inductionHypothesis fun index inside => each index (by omega)]
      show (next _ count >>= fun state => [].foldlM next state) = _
      rw [each count (Nat.lt_succ_self count)]
      rfl

/-! ## Faults -/

def Outcome.FailsOnly {α : Type} (fails : Fault → Prop) (outcome : Outcome α) : Prop :=
  ∀ fault, outcome = .error fault → fails fault

namespace Outcome.FailsOnly

variable {α β : Type} {fails : Fault → Prop} {outcome : Outcome α} {next : α → Outcome β}

theorem of_exists (found : ∃ result, outcome = .ok result) : outcome.FailsOnly fails := by
  obtain ⟨result, rfl⟩ := found
  intro fault failed
  cases failed

theorem pure (result : α) : FailsOnly fails (Pure.pure result : Outcome α) :=
  of_exists ⟨result, rfl⟩

theorem bind (first : outcome.FailsOnly fails)
    (rest : ∀ result, outcome = .ok result → (next result).FailsOnly fails) :
    FailsOnly fails (outcome >>= next) := by
  intro fault failed
  cases ran : outcome with
  | ok result =>
      rw [ran] at failed
      exact rest result ran fault failed
  | error other =>
      rw [ran] at failed
      cases failed
      exact first fault ran

theorem known {result : α} (found : outcome = .ok result)
    (rest : (next result).FailsOnly fails) : FailsOnly fails (outcome >>= next) := by
  rw [found]
  exact rest

end Outcome.FailsOnly

/-! ## Elements and slices -/

section Access

variable {α : Type}

theorem fetch_eq_ok_iff {data : Array α} {index : Nat} {element : α} :
    fetch data index = .ok element ↔ data[index]? = some element := by
  unfold fetch
  cases data[index]? <;> simp

theorem slice_eq_ok_iff {data part : Array α} {start stop : Nat} :
    slice data start stop = .ok part ↔
      start ≤ stop ∧ stop ≤ data.size ∧ data.extract start stop = part := by
  unfold slice
  by_cases inside : start ≤ stop ∧ stop ≤ data.size
  · rw [if_pos inside]
    simp [inside]
  · rw [if_neg inside]
    constructor
    · intro impossible
      cases impossible
    · intro parts
      exact absurd ⟨parts.1, parts.2.1⟩ inside

theorem front_eq_ok_iff {data part : Array α} {count : Nat} :
    front data count = .ok part ↔ count ≤ data.size ∧ data.extract 0 count = part := by
  unfold front
  rw [slice_eq_ok_iff]
  simp

theorem operand_eq_ok_iff {operands : List α} {index : Nat} {element : α} :
    operand operands index = .ok element ↔ operands[index]? = some element := by
  unfold operand
  cases operands[index]? <;> simp

end Access

end TensorEngine
