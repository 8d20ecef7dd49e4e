import Mathlib.Data.Finset.Card
import Mathlib.Data.List.Induction
import TensorEngine.Proofs.Cache.Making

/-!
Contract: what a cache that publishes once has prepared, answered and counted after any requests.

Owns:
- `PublishOnce.Request`, a look-up with the preparation it brings, and the answers to a sequence of
  requests;
- `firstPrepared`, the value that a key gets, read off the requests alone;
- the accounts of a cache, kept by each request, and the theorem on any sequence of them;
- `CellCache`, which enters an empty cell before it prepares and leaves it empty after a failure,
  and cannot be told from the cache without empty cells.

Does not own: what is prepared.
-/

namespace TensorEngine

namespace PublishOnce

variable {K V ε : Type}

/-- A look-up of a key, with the preparation to run if there is no entry. -/
structure Request (K V ε : Type) where
  key : K
  prepare : Unit → Except ε V

/-- The value of the first successful preparation of a key among some requests, whether or not the
later preparations of the key would succeed. -/
def firstPrepared [DecidableEq K] (history : List (Request K V ε)) (key : K) : Option V :=
  history.findSome? fun request =>
    if request.key = key then (request.prepare ()).toOption else none

def successes (answered : List (K × Except ε V)) : List (K × V) :=
  answered.filterMap fun answer => answer.2.toOption.map (answer.1, ·)

variable [DecidableEq K]

def serve (cache : PublishOnce K V) (request : Request K V ε) : Except ε V × PublishOnce K V :=
  cache.getOrPublish request.key request.prepare

def afterRequests (cache : PublishOnce K V) (history : List (Request K V ε)) : PublishOnce K V :=
  history.foldl (fun cache request => (cache.serve request).2) cache

def answers (cache : PublishOnce K V) : List (Request K V ε) → List (K × Except ε V)
  | [] => []
  | request :: later =>
      (request.key, (cache.serve request).1) :: (cache.serve request).2.answers later

section Requests

variable {cache : PublishOnce K V} {history : List (Request K V ε)} {request : Request K V ε}

theorem afterRequests_concat :
    cache.afterRequests (history ++ [request]) =
      ((cache.afterRequests history).serve request).2 := by
  unfold afterRequests
  rw [List.foldl_append]
  rfl

theorem answers_concat :
    cache.answers (history ++ [request]) =
      cache.answers history ++
        [(request.key, ((cache.afterRequests history).serve request).1)] := by
  induction history generalizing cache with
  | nil => rfl
  | cons first history inductionHypothesis =>
      rw [List.cons_append, answers, answers, inductionHypothesis]
      rfl

/-- The three ends of a request: a hit, a published value, a failed preparation. -/
theorem serve_cases (cache : PublishOnce K V) (request : Request K V ε) :
    (∃ value, cache.peek? request.key = some value ∧
      cache.serve request = (.ok value, { cache with hits := cache.hits + 1 })) ∨
    (∃ value, cache.peek? request.key = none ∧ request.prepare () = .ok value ∧
      cache.serve request = (.ok value,
        ⟨cache.entries ++ [(request.key, value)], cache.hits, cache.misses + 1⟩)) ∨
    ∃ cause, cache.peek? request.key = none ∧ request.prepare () = .error cause ∧
      cache.serve request = (.error cause, cache) := by
  unfold serve getOrPublish
  cases found : cache.peek? request.key with
  | some value => exact .inl ⟨value, rfl, rfl⟩
  | none =>
      cases prepared : request.prepare () with
      | ok value => exact .inr (.inl ⟨value, rfl, rfl, rfl⟩)
      | error cause => exact .inr (.inr ⟨cause, rfl, rfl, rfl⟩)

theorem firstPrepared_concat (key : K) :
    firstPrepared (history ++ [request]) key =
      (firstPrepared history key).or
        (if request.key = key then (request.prepare ()).toOption else none) := by
  unfold firstPrepared
  rw [List.findSome?_append, List.findSome?_singleton]

theorem firstPrepared_concat_of_some {value : V}
    (known : firstPrepared history request.key = some value) (key : K) :
    firstPrepared (history ++ [request]) key = firstPrepared history key := by
  rw [firstPrepared_concat]
  by_cases same : request.key = key
  · rw [← same, known]
    rfl
  · rw [if_neg same, Option.or_none]

/-- A preparation that fails changes no first value. -/
theorem firstPrepared_concat_of_error {cause : ε} (failed : request.prepare () = .error cause)
    (key : K) : firstPrepared (history ++ [request]) key = firstPrepared history key := by
  have nothing : (if request.key = key then (request.prepare ()).toOption else none) = none := by
    rw [failed]
    exact ite_self none
  rw [firstPrepared_concat, nothing, Option.or_none]

omit [DecidableEq K] in
theorem successes_append (answered later : List (K × Except ε V)) :
    successes (answered ++ later) = successes answered ++ successes later :=
  List.filterMap_append

end Requests

/-! ## Accounts -/

/-- The accounts of a cache after some requests: its entries are the first values prepared, which
are the answers that succeeded; the counts are those of the answers, and of the keys among them. -/
structure Accounted (history : List (Request K V ε)) (succeeded : List (K × V))
    (cache : PublishOnce K V) : Prop where
  entries : ∀ key, cache.peek? key = firstPrepared history key
  succeeded_iff : ∀ key value, (key, value) ∈ succeeded ↔ firstPrepared history key = some value
  answered : cache.hits + cache.misses = succeeded.length
  misses_eq : cache.misses = cache.size
  size_eq : cache.size = (succeeded.map Prod.fst).toFinset.card

namespace Accounted

variable {cache : PublishOnce K V} {history : List (Request K V ε)} {succeeded : List (K × V)}

theorem start : Accounted ([] : List (Request K V ε)) [] ({} : PublishOnce K V) where
  entries _ := rfl
  succeeded_iff key value := by simp [firstPrepared]
  answered := rfl
  misses_eq := rfl
  size_eq := rfl

theorem keys_concat (succeeded : List (K × V)) (key : K) (value : V) :
    ((succeeded ++ [(key, value)]).map Prod.fst).toFinset =
      insert key (succeeded.map Prod.fst).toFinset := by
  ext other
  simp

variable {request : Request K V ε} {value : V}

/-- A key is among the answers that succeeded exactly if it has a value. -/
theorem mem_keys (accounted : Accounted history succeeded cache) (key : K) :
    key ∈ (succeeded.map Prod.fst).toFinset ↔ ∃ value, firstPrepared history key = some value := by
  rw [List.mem_toFinset, List.mem_map, Prod.exists]
  simp only [← accounted.succeeded_iff, exists_and_right, exists_eq_right]

theorem hit (accounted : Accounted history succeeded cache)
    (known : firstPrepared history request.key = some value) :
    Accounted (history ++ [request]) (succeeded ++ [(request.key, value)])
      { cache with hits := cache.hits + 1 } := by
  have same := firstPrepared_concat_of_some known
  refine ⟨fun key => ?_, fun key other => ?_, ?_, accounted.misses_eq, ?_⟩
  · rw [same]
    exact accounted.entries key
  · rw [same, ← accounted.succeeded_iff, List.mem_append]
    refine or_iff_left_of_imp fun last => ?_
    cases List.mem_singleton.mp last
    exact (accounted.succeeded_iff request.key value).mpr known
  · show cache.hits + 1 + cache.misses = _
    rw [List.length_append, ← accounted.answered, List.length_singleton]
    omega
  · rw [keys_concat, Finset.insert_eq_of_mem ((accounted.mem_keys _).mpr ⟨value, known⟩)]
    exact accounted.size_eq

theorem publish (accounted : Accounted history succeeded cache)
    (missing : firstPrepared history request.key = none)
    (prepared : request.prepare () = .ok value) :
    Accounted (history ++ [request]) (succeeded ++ [(request.key, value)])
      ⟨cache.entries ++ [(request.key, value)], cache.hits, cache.misses + 1⟩ := by
  have grown : ∀ key, firstPrepared (history ++ [request]) key =
      (firstPrepared history key).or (if request.key = key then some value else none) := by
    intro key
    rw [firstPrepared_concat, prepared]
    rfl
  have larger : size ⟨cache.entries ++ [(request.key, value)], cache.hits, cache.misses + 1⟩ =
      cache.size + 1 := List.length_append
  have fresh : request.key ∉ (succeeded.map Prod.fst).toFinset := fun listed => by
    obtain ⟨other, known⟩ := (accounted.mem_keys request.key).mp listed
    exact nomatch missing.symm.trans known
  refine ⟨fun key => ?_, fun key other => ?_, ?_,
    (congrArg (· + 1) accounted.misses_eq).trans larger.symm, ?_⟩
  · rw [peek?_append, grown, accounted.entries]
  · rw [grown, Option.or_eq_some_iff, List.mem_append, List.mem_singleton,
      accounted.succeeded_iff, Prod.mk.injEq]
    refine or_congr_right ⟨?_, ?_⟩
    · rintro ⟨rfl, rfl⟩
      exact ⟨missing, if_pos rfl⟩
    · rintro ⟨_, given⟩
      split at given
      · rename_i same
        cases given
        exact ⟨same.symm, rfl⟩
      · cases given
  · show cache.hits + (cache.misses + 1) = _
    rw [List.length_append, ← accounted.answered, List.length_singleton]
    omega
  · rw [larger, keys_concat, Finset.card_insert_of_notMem fresh, ← accounted.size_eq]

theorem fail (accounted : Accounted history succeeded cache) {cause : ε}
    (failed : request.prepare () = .error cause) :
    Accounted (history ++ [request]) succeeded cache := by
  have same : ∀ key, firstPrepared (history ++ [request]) key = firstPrepared history key :=
    firstPrepared_concat_of_error failed
  refine ⟨fun key => ?_, fun key value => ?_, accounted.answered, accounted.misses_eq,
    accounted.size_eq⟩
  · rw [same]
    exact accounted.entries key
  · rw [same]
    exact accounted.succeeded_iff key value

theorem serve (accounted : Accounted history succeeded cache) (request : Request K V ε) :
    Accounted (history ++ [request])
      (succeeded ++ successes [(request.key, (cache.serve request).1)])
      (cache.serve request).2 := by
  rcases serve_cases cache request with ⟨value, found, ended⟩ |
    ⟨value, missing, prepared, ended⟩ | ⟨cause, _, failed, ended⟩
  · rw [ended]
    exact accounted.hit ((accounted.entries request.key).symm.trans found)
  · rw [ended]
    exact accounted.publish ((accounted.entries request.key).symm.trans missing) prepared
  · rw [ended]
    exact (List.append_nil succeeded).symm ▸ accounted.fail failed

end Accounted

/-- The accounts are kept by any sequence of requests. -/
theorem accounted_afterRequests (history : List (Request K V ε)) :
    Accounted history (successes (({} : PublishOnce K V).answers history))
      (({} : PublishOnce K V).afterRequests history) := by
  induction history using List.reverseRecOn with
  | nil => exact .start
  | append_singleton history request inductionHypothesis =>
      rw [answers_concat, successes_append, afterRequests_concat]
      exact inductionHypothesis.serve request

end PublishOnce

/-! ## Empty cells -/

/-- A cache that enters a cell for a key before the value is prepared. The cell is filled when the
preparation succeeds and stays empty when it fails. -/
structure CellCache (K V : Type) where
  cells : List (K × Option V) := []
  hits : Nat := 0
  misses : Nat := 0

namespace CellCache

variable {K V ε : Type} [DecidableEq K]

def peek? (cache : CellCache K V) (key : K) : Option V :=
  (cache.cells.find? fun cell => cell.1 = key).bind (·.2)

/-- Enters an empty cell for a key without one. -/
def enter (cache : CellCache K V) (key : K) : CellCache K V :=
  if key ∈ cache.cells.map Prod.fst then cache
  else { cache with cells := cache.cells ++ [(key, none)] }

def fill (cache : CellCache K V) (key : K) (value : V) : CellCache K V :=
  { cache with
    cells := cache.cells.map fun cell => if cell.1 = key then (key, some value) else cell }

/-- The value in the cell of a key, which is entered first and then filled if it is empty. What has
happened is counted at the end, a failure not at all. -/
def getOrPublish (cache : CellCache K V) (key : K) (prepare : Unit → Except ε V) :
    Except ε V × CellCache K V :=
  let entered := cache.enter key
  match entered.peek? key with
  | some value => (.ok value, { entered with hits := entered.hits + 1 })
  | none =>
      match prepare () with
      | .ok value =>
          let filled := entered.fill key value
          (.ok value, { filled with misses := filled.misses + 1 })
      | .error cause => (.error cause, entered)

def size (cache : CellCache K V) : Nat := cache.cells.countP fun cell => cell.2.isSome

def afterRequests (cache : CellCache K V) (history : List (PublishOnce.Request K V ε)) :
    CellCache K V :=
  history.foldl (fun cache request => (cache.getOrPublish request.key request.prepare).2) cache

/-- A cache of cells that shows what another cache shows: the same values and the same counts. -/
structure Shows (cells : CellCache K V) (cache : PublishOnce K V) : Prop where
  peek?_eq : ∀ key, cells.peek? key = cache.peek? key
  hits_eq : cells.hits = cache.hits
  misses_eq : cells.misses = cache.misses
  size_eq : cells.size = cache.size

/-- One cell for each key. -/
def Tidy (cache : CellCache K V) : Prop := (cache.cells.map Prod.fst).Nodup

variable {cells : CellCache K V} {cache : PublishOnce K V} {key : K} {value : V}

/-! ### Entering -/

theorem mem_enter (cells : CellCache K V) (key : K) :
    key ∈ (cells.enter key).cells.map Prod.fst := by
  unfold enter
  split
  · assumption
  · simp

theorem Tidy.enter (tidy : cells.Tidy) (key : K) : (cells.enter key).Tidy := by
  unfold CellCache.enter
  split
  · exact tidy
  · rename_i fresh
    unfold Tidy at tidy ⊢
    rw [List.map_append, List.nodup_append]
    refine ⟨tidy, List.nodup_singleton key, fun other listed _ last same => ?_⟩
    cases List.mem_singleton.mp last
    subst same
    exact fresh listed

theorem peek?_enter (cells : CellCache K V) (key other : K) :
    (cells.enter key).peek? other = cells.peek? other := by
  unfold enter
  split
  · rfl
  · unfold peek?
    rw [List.find?_append]
    cases cells.cells.find? fun cell => cell.1 = other with
    | some cell => rfl
    | none => by_cases same : key = other <;> simp [same]

theorem size_enter (cells : CellCache K V) (key : K) : (cells.enter key).size = cells.size := by
  unfold enter
  split
  · rfl
  · unfold size
    rw [List.countP_append]
    rfl

theorem Shows.enter (alike : cells.Shows cache) (key : K) : (cells.enter key).Shows cache := by
  refine ⟨fun other => (peek?_enter cells key other).trans (alike.peek?_eq other), ?_, ?_,
    (size_enter cells key).trans alike.size_eq⟩
  · rw [← alike.hits_eq]
    unfold CellCache.enter
    split <;> rfl
  · rw [← alike.misses_eq]
    unfold CellCache.enter
    split <;> rfl

/-! ### Filling -/

/-- Cells of other keys are passed over. -/
theorem find?_skips {before after : List (K × Option V)} {content : Option V}
    (others : ∀ cell ∈ before ++ after, cell.1 ≠ key) :
    (before ++ (key, content) :: after).find? (fun cell => cell.1 = key) = some (key, content) := by
  have missed : before.find? (fun cell => cell.1 = key) = none :=
    List.find?_eq_none.mpr fun cell listed matched =>
      others cell (List.mem_append_left after listed) (of_decide_eq_true matched)
  rw [List.find?_append, missed, List.find?_cons]
  simp

/-- The cell of a key that has been entered, among the others. -/
theorem Tidy.exists_cell (tidy : cells.Tidy) (entered : key ∈ cells.cells.map Prod.fst) :
    ∃ before after, cells.cells = before ++ (key, cells.peek? key) :: after ∧
      ∀ cell ∈ before ++ after, cell.1 ≠ key := by
  obtain ⟨⟨_, content⟩, listed, rfl⟩ := List.mem_map.mp entered
  obtain ⟨before, after, split⟩ := List.append_of_mem listed
  unfold Tidy at tidy
  rw [split, List.map_append, List.map_cons, List.nodup_middle, List.nodup_cons,
    ← List.map_append] at tidy
  have others : ∀ cell ∈ before ++ after, cell.1 ≠ _ := fun cell listed same =>
    tidy.1 (List.mem_map.mpr ⟨cell, listed, same⟩)
  refine ⟨before, after, ?_, others⟩
  unfold peek?
  rw [split, find?_skips others]
  simp

theorem Tidy.fill (tidy : cells.Tidy) (key : K) (value : V) : (cells.fill key value).Tidy := by
  have sameKeys : (cells.fill key value).cells.map Prod.fst = cells.cells.map Prod.fst := by
    unfold CellCache.fill
    rw [List.map_map]
    refine List.map_congr_left fun cell _ => ?_
    by_cases same : cell.1 = key <;> simp [same]
  unfold Tidy
  rw [sameKeys]
  exact tidy

/-- A filled cell is the only change. -/
theorem Tidy.fill_cells (tidy : cells.Tidy) (entered : key ∈ cells.cells.map Prod.fst) (value : V) :
    ∃ before after, cells.cells = before ++ (key, cells.peek? key) :: after ∧
      (cells.fill key value).cells = before ++ (key, some value) :: after ∧
        ∀ cell ∈ before ++ after, cell.1 ≠ key := by
  obtain ⟨before, after, split, others⟩ := tidy.exists_cell entered
  refine ⟨before, after, split, ?_, others⟩
  have kept : ∀ part : List (K × Option V), (∀ cell ∈ part, cell ∈ before ++ after) →
      part.map (fun cell => if cell.1 = key then (key, some value) else cell) = part := by
    intro part among
    refine (List.map_congr_left fun cell listed => ?_).trans (List.map_id part)
    exact if_neg (others cell (among cell listed))
  unfold CellCache.fill
  dsimp only
  rw [split, List.map_append, List.map_cons, if_pos rfl,
    kept before fun cell listed => List.mem_append_left after listed,
    kept after fun cell listed => List.mem_append_right before listed]

/-- A cell that was empty is filled as an entry is published. -/
theorem Shows.fill (alike : cells.Shows cache) (tidy : cells.Tidy)
    (entered : key ∈ cells.cells.map Prod.fst) (empty : cells.peek? key = none) (value : V) :
    Shows { cells.fill key value with misses := cells.misses + 1 }
      ⟨cache.entries ++ [(key, value)], cache.hits, cache.misses + 1⟩ := by
  obtain ⟨before, after, split, filled, others⟩ := tidy.fill_cells entered value
  rw [empty] at split
  refine ⟨fun other => ?_, alike.hits_eq, congrArg (· + 1) alike.misses_eq, ?_⟩
  · rw [PublishOnce.peek?_append, ← alike.peek?_eq]
    unfold peek?
    dsimp only
    by_cases same : key = other
    · subst same
      rw [filled, split, find?_skips others, find?_skips others]
      simp
    · rw [filled, split, List.find?_append, List.find?_append, List.find?_cons_of_neg (by simpa),
        List.find?_cons_of_neg (by simpa), if_neg same, Option.or_none]
  · have sizes := alike.size_eq
    unfold size PublishOnce.size at *
    dsimp only
    rw [split, List.countP_append, List.countP_cons] at sizes
    rw [filled, List.countP_append, List.countP_cons, List.length_append, ← sizes]
    simp
    omega

/-! ### Requests -/

/-- A request is answered alike, and the caches show the same after it. -/
theorem Shows.getOrPublish (alike : cells.Shows cache) (tidy : cells.Tidy) (key : K)
    (prepare : Unit → Except ε V) :
    (cells.getOrPublish key prepare).1 = (cache.getOrPublish key prepare).1 ∧
      (cells.getOrPublish key prepare).2.Shows (cache.getOrPublish key prepare).2 ∧
        (cells.getOrPublish key prepare).2.Tidy := by
  have entered := alike.enter key
  have tidyEntered := tidy.enter key
  have sameValue := entered.peek?_eq key
  unfold CellCache.getOrPublish PublishOnce.getOrPublish
  dsimp only
  rw [sameValue]
  cases found : cache.peek? key with
  | some value =>
      exact ⟨rfl, ⟨entered.peek?_eq, congrArg (· + 1) entered.hits_eq, entered.misses_eq,
        entered.size_eq⟩, tidyEntered⟩
  | none =>
      dsimp only
      cases prepare () with
      | ok value =>
          have empty := sameValue.trans found
          exact ⟨rfl, entered.fill tidyEntered (mem_enter cells key) empty value,
            tidyEntered.fill key value⟩
      | error cause => exact ⟨rfl, entered, tidyEntered⟩

theorem alike_afterRequests (history : List (PublishOnce.Request K V ε)) :
    (({} : CellCache K V).afterRequests history).Shows
        (({} : PublishOnce K V).afterRequests history) ∧
      (({} : CellCache K V).afterRequests history).Tidy := by
  induction history using List.reverseRecOn with
  | nil => exact ⟨⟨fun _ => rfl, rfl, rfl, rfl⟩, List.nodup_nil⟩
  | append_singleton history request inductionHypothesis =>
      obtain ⟨alike, tidy⟩ := inductionHypothesis
      rw [PublishOnce.afterRequests_concat]
      unfold afterRequests at alike tidy ⊢
      rw [List.foldl_append]
      exact (alike.getOrPublish tidy request.key request.prepare).2

end CellCache

namespace PublishOnce

/-- A cache that publishes once keeps exact accounts.

After any requests, of any keys and with preparations that succeed or fail, the answers that have a
value are, for each key, the value of its first successful preparation, which is also what the cache
shows for the key. The hits and misses together are as many as the answers with a value, and the
misses are as many as the entries, and as the keys with such an answer. A preparation is run exactly
by a request whose key has no such answer yet: then its end is the answer, whatever it is, and if it
fails, the cache stays as it was; else every preparation leads to the same answer and the same
cache. A cache that enters empty cells before preparations, and leaves them empty when these fail,
shows the same values and counts, and answers alike. -/
theorem publish_once_accounting {K V ε : Type} [DecidableEq K] (history : List (Request K V ε)) :
    let cache := ({} : PublishOnce K V).afterRequests history
    let succeeded := successes (({} : PublishOnce K V).answers history)
    let cells := ({} : CellCache K V).afterRequests history
    (∀ key value, (key, value) ∈ succeeded ↔ firstPrepared history key = some value) ∧
    (∀ key, cache.peek? key = firstPrepared history key) ∧
    cache.hits + cache.misses = succeeded.length ∧
    (cache.misses = cache.size ∧ cache.size = (succeeded.map Prod.fst).toFinset.card) ∧
    (∀ key, cache.mustPrepare key = (firstPrepared history key).isNone ∧
      match firstPrepared history key with
      | none => ∀ prepare : Unit → Except ε V, (cache.getOrPublish key prepare).1 = prepare () ∧
          ∀ cause, prepare () = .error cause → (cache.getOrPublish key prepare).2 = cache
      | some value => ∀ prepare : Unit → Except ε V, cache.getOrPublish key prepare =
          (.ok value, { cache with hits := cache.hits + 1 })) ∧
    cells.Shows cache ∧ ∀ key (prepare : Unit → Except ε V),
      (cells.getOrPublish key prepare).1 = (cache.getOrPublish key prepare).1 := by
  intro cache succeeded cells
  have accounted := accounted_afterRequests history
  obtain ⟨alike, tidy⟩ := CellCache.alike_afterRequests history
  refine ⟨accounted.succeeded_iff, accounted.entries, accounted.answered,
    ⟨accounted.misses_eq, accounted.size_eq⟩, fun key => ?_, alike, fun key prepare =>
      (alike.getOrPublish tidy key prepare).1⟩
  have shown : cache.peek? key = firstPrepared history key := accounted.entries key
  refine ⟨congrArg Option.isNone shown, ?_⟩
  rw [← shown]
  unfold getOrPublish
  cases cache.peek? key with
  | some value => exact fun _ => rfl
  | none =>
      intro prepare
      dsimp only
      cases prepare () with
      | ok value => exact ⟨rfl, nofun⟩
      | error cause => exact ⟨rfl, fun _ _ => rfl⟩

/-- A key whose first preparation fails gets the value of its second, and a failure after that
leaves the cache as it is. -/
theorem publish_once_accounting_retry :
    let history : List (Request String Nat String) := [⟨"a", fun _ => .error "full"⟩,
      ⟨"b", fun _ => .ok 1⟩, ⟨"a", fun _ => .ok 2⟩, ⟨"a", fun _ => .ok 3⟩]
    let cache := ({} : PublishOnce String Nat).afterRequests history
    (cache.peek? "a" = some 2 ∧ cache.hits + cache.misses = 3 ∧ cache.misses = 2) ∧
      (cache.getOrPublish "c" fun _ => (.error "full" : Except String Nat)).2 = cache := by
  intro history cache
  obtain ⟨_, entries, answered, _, ends, _⟩ := publish_once_accounting history
  refine ⟨⟨(entries "a").trans (by decide), answered.trans (by decide), by decide⟩, ?_⟩
  exact ((ends "c").2 fun _ => .error "full").2 "full" rfl

end PublishOnce

end TensorEngine
