import TensorEngine.Cache.Workshop
import TensorEngine.Proofs.Checked

/-!
Contract: how computations in the workshop end, and that they can be repeated.

Owns:
- `Workshop.Extends`, a later workshop whose caches still hold every entry;
- `Making.Ends`, what holds of every result and of every fault;
- `Making.Repeats`, a second computation that succeeds wherever the first one has before;
- the rules of both judgements, by construct.

Does not own: the computations that make operators.
-/

namespace TensorEngine

/-! ## Published entries stay -/

section Published

variable {K V ε : Type} [DecidableEq K]

/-- A cache that is there exactly when an earlier one is, and holds all of its entries. -/
def CacheExtends (later earlier : Option (PublishOnce K V)) : Prop :=
  match earlier, later with
  | none, none => True
  | some earlier, some later =>
      ∀ key value, earlier.peek? key = some value → later.peek? key = some value
  | _, _ => False

theorem CacheExtends.refl (cache : Option (PublishOnce K V)) : CacheExtends cache cache := by
  cases cache with
  | none => exact trivial
  | some cache => exact fun _ _ found => found

theorem CacheExtends.trans {first second third : Option (PublishOnce K V)}
    (late : CacheExtends third second) (early : CacheExtends second first) :
    CacheExtends third first := by
  cases first with
  | none =>
      cases second with
      | none => exact late
      | some second => exact early.elim
  | some first =>
      cases second with
      | none => exact early.elim
      | some second =>
          cases third with
          | none => exact late.elim
          | some third => exact fun key value found => late key value (early key value found)

namespace PublishOnce

theorem peek?_append (cache : PublishOnce K V) (key other : K) (value : V) :
    (PublishOnce.mk (cache.entries ++ [(key, value)]) cache.hits (cache.misses + 1)).peek? other =
      (cache.peek? other).or (if key = other then some value else none) := by
  unfold peek?
  rw [List.find?_append]
  cases cache.entries.find? fun entry => entry.1 = other with
  | some entry => rfl
  | none => by_cases same : key = other <;> simp [same]

/-- A look-up that has a result leaves all entries in place and the result published. -/
theorem getOrPublish_ok {cache after : PublishOnce K V} {key : K} {prepare : Unit → Except ε V}
    {value : V} (ran : cache.getOrPublish key prepare = (.ok value, after)) :
    CacheExtends (some after) (some cache) ∧ after.peek? key = some value := by
  unfold getOrPublish at ran
  cases found : cache.peek? key with
  | some published =>
      simp only [found, Prod.mk.injEq, Except.ok.injEq] at ran
      obtain ⟨rfl, rfl⟩ := ran
      exact ⟨fun _ _ given => given, found⟩
  | none =>
      simp only [found] at ran
      cases prepared : prepare () with
      | error cause => simp [prepared] at ran
      | ok made =>
          simp only [prepared, Prod.mk.injEq, Except.ok.injEq] at ran
          obtain ⟨rfl, rfl⟩ := ran
          constructor
          · intro other value given
            rw [peek?_append, given]
            rfl
          · rw [peek?_append, found]
            simp

end PublishOnce

end Published

/-- A later workshop: it has the same caches, with all the entries they had. -/
structure Workshop.Extends (later earlier : Workshop) : Prop where
  packing : CacheExtends later.packing earlier.packing
  code : CacheExtends later.code earlier.code

namespace Workshop.Extends

theorem refl (workshop : Workshop) : workshop.Extends workshop :=
  ⟨CacheExtends.refl _, CacheExtends.refl _⟩

theorem trans {first second third : Workshop} (late : third.Extends second)
    (early : second.Extends first) : third.Extends first :=
  ⟨late.packing.trans early.packing, late.code.trans early.code⟩

end Workshop.Extends

/-! ## Ends -/

namespace Making

variable {α β : Type}

/-- What holds of the result of a computation, in any workshop, and of the fault when there is
none. -/
def Ends (making : Making α) (post : α → Prop) (fails : Fault → Prop) : Prop :=
  ∀ before : Workshop,
    match (making before).1 with
    | .ok result => post result
    | .error fault => fails fault

theorem bind_apply (making : Making α) (next : α → Making β) (before : Workshop) :
    (making >>= next) before =
      match making before with
      | (.ok result, after) => next result after
      | (.error fault, after) => (.error fault, after) := by
  show (match making before with | (result, after) => ExceptT.bindCont next result after) = _
  cases making before with
  | mk result after => cases result <;> rfl

theorem bind_of_ok {making : Making α} {before after : Workshop} {result : α}
    (ran : making before = (.ok result, after)) (next : α → Making β) :
    (making >>= next) before = next result after := by
  rw [bind_apply, ran]

theorem ite_bind_of_ok {condition : Prop} [Decidable condition] {first second : Making α}
    {before after : Workshop} {result : α}
    (ran : (if condition then first else second) before = (.ok result, after))
    (next : α → Making β) :
    (if condition then first >>= next else second >>= next) before = next result after := by
  by_cases holds : condition
  · rw [if_pos holds] at ran ⊢
    exact bind_of_ok ran next
  · rw [if_neg holds] at ran ⊢
    exact bind_of_ok ran next

theorem lift_of_ok {outcome : Outcome α} {result : α} (found : outcome = .ok result)
    (before : Workshop) : (liftM outcome : Making α) before = (.ok result, before) := by
  rw [found]
  rfl

theorem map_of_ok {making : Making α} {before after : Workshop} {result : α}
    (ran : making before = (.ok result, after)) (function : α → β) :
    (function <$> making) before = (.ok (function result), after) := by
  rw [map_eq_pure_bind, bind_of_ok ran]
  rfl

namespace Ends

variable {post : α → Prop} {fails : Fault → Prop} {making : Making α}

theorem pure {result : α} (holds : post result) : Ends (Pure.pure result) post fails :=
  fun _ => holds

theorem ofOutcome {outcome : Outcome α}
    (holds : match outcome with | .ok result => post result | .error fault => fails fault) :
    Ends (liftM outcome) post fails :=
  fun _ => holds

theorem of_outcome_ok {outcome : Outcome α} (holds : ∀ result, outcome = .ok result → post result) :
    Ends (liftM outcome) post (fun _ => True) := by
  apply ofOutcome
  cases outcome with
  | ok result => exact holds result rfl
  | error fault => exact trivial

theorem known {outcome : Outcome α} {result : α} (found : outcome = .ok result) :
    Ends (liftM outcome) (fun given => given = result) fails := by
  apply ofOutcome
  rw [found]

theorem somehow (making : Making α) : making.Ends (fun _ => True) (fun _ => True) := by
  intro before
  cases (making before).1 <;> exact trivial

/-- What ensures a property ensures weaker ones. -/
theorem mono {weaker : α → Prop} (first : making.Ends post fails)
    (implied : ∀ result, post result → weaker result) : making.Ends weaker fails := by
  intro before
  have ended := first before
  cases ran : (making before).1 with
  | ok result =>
      rw [ran] at ended
      exact implied result ended
  | error fault =>
      rw [ran] at ended
      exact ended

theorem mono_fails {weaker : Fault → Prop} (first : making.Ends post fails)
    (implied : ∀ fault, fails fault → weaker fault) : making.Ends post weaker := by
  intro before
  have ended := first before
  cases ran : (making before).1 with
  | ok result =>
      rw [ran] at ended
      exact ended
  | error fault =>
      rw [ran] at ended
      exact implied fault ended

theorem and {other : α → Prop} (first : making.Ends post fails)
    (second : making.Ends other fails) :
    making.Ends (fun result => post result ∧ other result) fails := by
  intro before
  have ended := first before
  have endedOther := second before
  cases ran : (making before).1 with
  | ok result =>
      rw [ran] at ended endedOther
      exact ⟨ended, endedOther⟩
  | error fault =>
      rw [ran] at ended
      exact ended

theorem bind {next : α → Making β} {later : β → Prop} (first : making.Ends post fails)
    (rest : ∀ result, post result → (next result).Ends later fails) :
    (making >>= next).Ends later fails := by
  intro before
  rw [bind_apply]
  have ended := first before
  cases ran : making before with
  | mk result after =>
      rw [ran] at ended
      cases result with
      | ok result => exact rest result ended after
      | error fault => exact ended

theorem map {function : α → β} {later : β → Prop} (first : making.Ends post fails)
    (holds : ∀ result, post result → later (function result)) :
    (function <$> making).Ends later fails := by
  rw [map_eq_pure_bind]
  exact first.bind fun result given => pure (holds result given)

theorem report (notice : Notice) : (Making.report notice).Ends (fun _ => True) fails :=
  fun _ => trivial

theorem reporting (notice : EngineError → Notice) (first : making.Ends post fails) :
    (Making.reporting notice making).Ends post fails := by
  intro before
  have ended := first before
  unfold Making.reporting
  cases ran : making before with
  | mk result after =>
      rw [ran] at ended
      cases result with
      | ok result => exact ended
      | error fault => cases fault <;> exact ended

/-- A computation for each element of a list, in order. -/
theorem mapM {elements : List α} {step : α → Making β} {each : α → β → Prop}
    (steps : ∀ element ∈ elements, (step element).Ends (each element) fails) :
    (elements.mapM step).Ends (List.Forall₂ each elements) fails := by
  induction elements with
  | nil =>
      rw [List.mapM_nil]
      exact pure .nil
  | cons element elements inductionHypothesis =>
      rw [List.mapM_cons]
      apply (steps element List.mem_cons_self).bind
      intro result given
      refine (inductionHypothesis fun other listed =>
        steps other (List.mem_cons_of_mem _ listed)).bind fun results givenRest => ?_
      exact pure (.cons given givenRest)

/-- What a computation has given, it ensures. -/
theorem of_ok (first : making.Ends post fails) {before after : Workshop} {result : α}
    (ran : making before = (.ok result, after)) : post result := by
  have ended := first before
  rw [ran] at ended
  exact ended

theorem packed {key : PackingKey} {pack : Unit → Outcome PackedWeights} {fails : Fault → Prop}
    (packs : ∀ fault, pack () = .error fault → fails fault) :
    (Workshop.packed key pack).Ends (fun _ => True) fails := by
  intro before
  unfold Workshop.packed
  cases before.packing with
  | none =>
      dsimp only
      cases given : pack () with
      | ok weights => exact trivial
      | error fault => exact packs fault given
  | some cache =>
      dsimp only
      unfold PublishOnce.getOrPublish
      cases cache.peek? key with
      | some artifact => exact trivial
      | none =>
          cases given : pack () with
          | ok weights => exact trivial
          | error fault => exact packs fault given

theorem table {key : TableKey} {fill : Unit → Outcome LookupTable} {fails : Fault → Prop}
    (fills : ∀ fault, fill () = .error fault → fails fault) :
    (Workshop.table key fill).Ends (fun _ => True) fails := by
  intro before
  unfold Workshop.table
  cases before.code with
  | none =>
      dsimp only
      cases given : fill () with
      | ok table => exact trivial
      | error fault => exact fills fault given
  | some cache =>
      dsimp only
      unfold PublishOnce.getOrPublish
      cases cache.peek? key with
      | some table => exact trivial
      | none =>
          cases given : fill () with
          | ok table => exact trivial
          | error fault => exact fills fault given

end Ends

/-! ## Repetition -/

/-- Wherever the first computation has succeeded before, the second one succeeds, with a related
result. Neither takes anything out of a cache. -/
def Repeats (first second : Making α) (related : α → α → Prop) : Prop :=
  ∀ before result middle, first before = (.ok result, middle) →
    middle.Extends before ∧ ∀ later : Workshop, later.Extends middle →
      ∃ repeated after, second later = (.ok repeated, after) ∧ after.Extends later ∧
        related result repeated

namespace Repeats

variable {first second : Making α} {related : α → α → Prop}

theorem pure {result other : α} (same : related result other) :
    Repeats (Pure.pure result) (Pure.pure other) related := by
  intro before given middle ran
  cases ran
  exact ⟨.refl _, fun later _ => ⟨other, later, rfl, .refl _, same⟩⟩

theorem ofOutcome {outcome other : Outcome α}
    (same : ∀ result, outcome = .ok result → ∃ repeated, other = .ok repeated ∧
      related result repeated) :
    Repeats (liftM outcome) (liftM other) related := by
  intro before result middle ran
  have given : outcome = .ok result := congrArg Prod.fst ran
  have unchanged : before = middle := congrArg Prod.snd ran
  obtain ⟨repeated, found, same⟩ := same result given
  rw [← unchanged]
  exact ⟨.refl _, fun later _ => ⟨repeated, later, by rw [found]; rfl, .refl _, same⟩⟩

theorem report (notice other : Notice) :
    Repeats (Making.report notice) (Making.report other) (fun _ _ => True) := by
  intro before result middle ran
  cases ran
  refine ⟨⟨.refl _, .refl _⟩, fun later _ => ?_⟩
  exact ⟨(), _, rfl, ⟨.refl _, .refl _⟩, trivial⟩

theorem bind {next other : α → Making β} {laterRelated : β → β → Prop}
    (start : Repeats first second related)
    (rest : ∀ result repeated, related result repeated →
      Repeats (next result) (other repeated) laterRelated) :
    Repeats (first >>= next) (second >>= other) laterRelated := by
  intro before result middle ran
  rw [bind_apply] at ran
  cases ranFirst : first before with
  | mk given between =>
      simp only [ranFirst] at ran
      cases given with
      | error fault => cases ran
      | ok given =>
          obtain ⟨grown, again⟩ := start before given between ranFirst
          -- the second computation could run at once, which relates it to the rest of the first
          obtain ⟨atOnce, _, _, _, sameAtOnce⟩ := again between (.refl _)
          have grownRest := (rest given atOnce sameAtOnce between result middle ran).1
          refine ⟨grownRest.trans grown, fun later laterExtends => ?_⟩
          obtain ⟨repeated, after, ranSecond, grownSecond, same⟩ :=
            again later (laterExtends.trans grownRest)
          obtain ⟨last, final, ranLast, grownLast, sameLast⟩ :=
            (rest given repeated same between result middle ran).2 after
              (grownSecond.trans laterExtends)
          refine ⟨last, final, ?_, grownLast.trans grownSecond, sameLast⟩
          rw [bind_apply, ranSecond]
          exact ranLast

theorem map {function other : α → β} {laterRelated : β → β → Prop}
    (start : Repeats first second related)
    (same : ∀ result repeated, related result repeated →
      laterRelated (function result) (other repeated)) :
    Repeats (function <$> first) (other <$> second) laterRelated := by
  rw [map_eq_pure_bind, map_eq_pure_bind]
  exact start.bind fun result repeated given => pure (same result repeated given)

theorem reporting (notice other : EngineError → Notice) (start : Repeats first second related) :
    Repeats (Making.reporting notice first) (Making.reporting other second) related := by
  have runs : ∀ {notice : EngineError → Notice} {making : Making α} {before middle result},
      Making.reporting notice making before = (.ok result, middle) ↔
        making before = (.ok result, middle) := by
    intro notice making before middle result
    unfold Making.reporting
    cases making before with
    | mk given after =>
        cases given with
        | ok given => exact Iff.rfl
        | error fault =>
            cases fault <;> exact ⟨fun failed => (nomatch failed), fun failed => (nomatch failed)⟩
  intro before result middle ran
  obtain ⟨grown, again⟩ := start before result middle (runs.mp ran)
  refine ⟨grown, fun later laterExtends => ?_⟩
  obtain ⟨repeated, after, ranSecond, rest⟩ := again later laterExtends
  exact ⟨repeated, after, runs.mpr ranSecond, rest⟩

theorem mapM {elements : List α} {step other : α → Making β} {each : β → β → Prop}
    (steps : ∀ element ∈ elements, Repeats (step element) (other element) each) :
    Repeats (elements.mapM step) (elements.mapM other) (List.Forall₂ each) := by
  induction elements with
  | nil =>
      rw [List.mapM_nil, List.mapM_nil]
      exact pure .nil
  | cons element elements inductionHypothesis =>
      rw [List.mapM_cons, List.mapM_cons]
      apply (steps element List.mem_cons_self).bind
      intro result repeated same
      refine (inductionHypothesis fun another listed =>
        steps another (List.mem_cons_of_mem _ listed)).bind fun results repeats sameRest => ?_
      exact pure (.cons same sameRest)

/-- Weights that have been packed once are found again, or packed again to the same weights. -/
theorem packed (key : PackingKey) (pack : Unit → Outcome PackedWeights) :
    Repeats (Workshop.packed key pack) (Workshop.packed key pack)
      (fun artifact repeated => repeated.weights = artifact.weights) := by
  intro before artifact middle ran
  unfold Workshop.packed at ran
  cases caches : before.packing with
  | none =>
      simp only [caches] at ran
      obtain ⟨stamped, rfl⟩ := Prod.mk.inj ran
      obtain ⟨weights, made, rfl⟩ := map_eq_ok_iff.mp stamped
      refine ⟨⟨?_, .refl _⟩, fun later laterExtends => ?_⟩
      · dsimp only
        rw [caches]
        exact trivial
      · have without := laterExtends.packing
        dsimp only at without
        cases laterCaches : later.packing with
        | some cache => rw [laterCaches] at without; exact without.elim
        | none =>
            refine ⟨⟨later.nextSerial, weights⟩, { later with nextSerial := later.nextSerial + 1 },
              ?_, ⟨.refl _, .refl _⟩, rfl⟩
            unfold Workshop.packed
            simp only [laterCaches, made]
            rfl
  | some cache =>
      simp only [caches] at ran
      rcases looked : cache.getOrPublish key
        (fun _ => PackedArtifact.mk before.nextSerial <$> pack ()) with ⟨found, grown⟩
      simp only [looked] at ran
      cases found with
      | error fault => cases ran
      | ok found =>
          cases ran
          obtain ⟨keeps, published⟩ := PublishOnce.getOrPublish_ok looked
          refine ⟨⟨by rw [caches]; exact keeps, .refl _⟩, fun later laterExtends => ?_⟩
          have entries := laterExtends.packing
          dsimp only at entries
          cases laterCaches : later.packing with
          | none => rw [laterCaches] at entries; exact entries.elim
          | some cacheLater =>
              rw [laterCaches] at entries
              have hit := entries key _ published
              have same : ∀ prepare : Unit → Outcome PackedArtifact,
                  cacheLater.getOrPublish key prepare =
                    (.ok artifact, { cacheLater with hits := cacheLater.hits + 1 }) := by
                intro prepare
                unfold PublishOnce.getOrPublish
                rw [hit]
              unfold Workshop.packed
              simp only [laterCaches, same]
              refine ⟨artifact, _, rfl, ⟨?_, .refl _⟩, rfl⟩
              rw [laterCaches]
              exact fun _ _ given => given

/-- A table that has been filled once is found again, or filled again to the same table. -/
theorem table (key : TableKey) (fill : Unit → Outcome LookupTable) :
    Repeats (Workshop.table key fill) (Workshop.table key fill) (fun table repeated =>
      repeated = table) := by
  intro before table middle ran
  unfold Workshop.table at ran
  cases caches : before.code with
  | none =>
      simp only [caches] at ran
      obtain ⟨made, rfl⟩ := Prod.mk.inj ran
      refine ⟨.refl _, fun later laterExtends => ?_⟩
      have without := laterExtends.code
      rw [caches] at without
      cases laterCaches : later.code with
      | some cache => rw [laterCaches] at without; exact without.elim
      | none =>
          refine ⟨table, later, ?_, .refl _, rfl⟩
          unfold Workshop.table
          simp only [laterCaches, made]
  | some cache =>
      simp only [caches] at ran
      rcases looked : cache.getOrPublish key fill with ⟨found, grown⟩
      simp only [looked] at ran
      cases found with
      | error fault => cases ran
      | ok found =>
          cases ran
          obtain ⟨keeps, published⟩ := PublishOnce.getOrPublish_ok looked
          refine ⟨⟨.refl _, by rw [caches]; exact keeps⟩, fun later laterExtends => ?_⟩
          have entries := laterExtends.code
          dsimp only at entries
          cases laterCaches : later.code with
          | none => rw [laterCaches] at entries; exact entries.elim
          | some cacheLater =>
              rw [laterCaches] at entries
              have hit := entries key _ published
              have same : cacheLater.getOrPublish key fill =
                  (.ok table, { cacheLater with hits := cacheLater.hits + 1 }) := by
                unfold PublishOnce.getOrPublish
                rw [hit]
              unfold Workshop.table
              simp only [laterCaches, same]
              refine ⟨table, _, rfl, ⟨.refl _, ?_⟩, rfl⟩
              rw [laterCaches]
              exact fun _ _ given => given

end Repeats

end Making

end TensorEngine
