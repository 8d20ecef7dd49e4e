import Mathlib.Data.Prod.Lex
import Mathlib.Data.String.Basic
import TensorEngine.Proofs.Catalog.Standard

/-!
Contract: what a catalog selects, for any registrations and any host.

Owns:
- the first match in a list that is sorted stably, found in the list as it was;
- `CatalogEntry.Preferred`, the entry that a look-up has to find: the one of greatest priority that
  the host can run, and among equals the one that was registered first;
- the order of keys by their names, in which every list of keys is determined by its members;
- the theorem on look-ups and keys.

Does not own: which entries are registered.
-/

namespace TensorEngine

/-! ## The first match after a stable sort -/

section StableSort

variable {α : Type} {le : α → α → Bool} (trans : ∀ a b c, le a b → le b c → le a c)
  (total : ∀ a b, le a b || le b a)

include trans total

/-- A stable sort keeps the order of elements that are all ties. -/
theorem filter_mergeSort_of_ties {elements : List α} {picked : α → Bool}
    (ties : ∀ first ∈ elements, ∀ second ∈ elements, picked first → picked second →
      le first second) :
    (elements.mergeSort le).filter picked = elements.filter picked := by
  have sorted : (elements.filter picked).Pairwise (fun first second => le first second) := by
    refine List.pairwise_of_forall_mem_list fun first listed second listedSecond => ?_
    obtain ⟨among, pick⟩ := List.mem_filter.mp listed
    obtain ⟨amongSecond, pickSecond⟩ := List.mem_filter.mp listedSecond
    exact ties first among second amongSecond pick pickSecond
  have kept := (List.sublist_mergeSort trans total sorted List.filter_sublist).filter picked
  rw [List.filter_filter, List.filter_congr (fun _ _ => Bool.and_self _)] at kept
  exact (kept.eq_of_length ((List.mergeSort_perm elements le).filter picked).length_eq.symm).symm

/-- The first match after a stable sort comes before no other match in the order, and it is the
first match of its rank in the list as it was. -/
theorem of_find?_mergeSort {elements : List α} {matched : α → Bool} {best : α}
    (found : (elements.mergeSort le).find? matched = some best) :
    elements.find? (fun element => matched element && le element best) = some best ∧
      ∀ element ∈ elements, matched element → le best element := by
  have reflexive : ∀ element, le element element = true := fun element => by
    simpa using total element element
  obtain ⟨matchesBest, before, after, split, unmatched⟩ := List.find?_eq_some_iff_append.mp found
  have least : ∀ element ∈ elements, matched element → le best element := by
    intro element listed matchesElement
    have sorted := List.pairwise_mergeSort trans total elements
    rw [split, List.pairwise_append, List.pairwise_cons] at sorted
    have arranged : element ∈ elements.mergeSort le := List.mem_mergeSort.mpr listed
    rw [split, List.mem_append, List.mem_cons] at arranged
    rcases arranged with early | rfl | late
    · have missed := unmatched element early
      rw [matchesElement] at missed
      cases missed
    · exact reflexive element
    · exact sorted.2.1.1 element late
  refine ⟨?_, least⟩
  have ties : ∀ first ∈ elements, ∀ second ∈ elements,
      (matched first && le first best) → (matched second && le second best) →
        le first second := by
    intro first _ second listed pick pickSecond
    rw [Bool.and_eq_true] at pick pickSecond
    exact trans _ _ _ pick.2 (least second listed pickSecond.1)
  rw [← List.head?_filter, ← filter_mergeSort_of_ties trans total ties, List.head?_filter,
    List.find?_eq_some_iff_append]
  refine ⟨by rw [matchesBest, reflexive]; rfl, before, after, split, fun element early => ?_⟩
  have missed := unmatched element early
  rw [Bool.not_eq_true'] at missed ⊢
  rw [missed]
  rfl

/-- The first match after a stable sort, in terms of the list as it was. -/
theorem find?_mergeSort_eq_some_iff {elements : List α} {matched : α → Bool} {best : α} :
    (elements.mergeSort le).find? matched = some best ↔
      elements.find? (fun element => matched element && le element best) = some best ∧
        ∀ element ∈ elements, matched element → le best element := by
  refine ⟨of_find?_mergeSort trans total, fun ⟨first, least⟩ => ?_⟩
  have matchesBest : matched best = true := by
    have pick := List.find?_some first
    rw [Bool.and_eq_true] at pick
    exact pick.1
  have listed : best ∈ elements.mergeSort le :=
    List.mem_mergeSort.mpr (List.mem_of_find?_eq_some first)
  cases found : (elements.mergeSort le).find? matched with
  | none => exact absurd matchesBest (List.find?_eq_none.mp found best listed)
  | some other =>
      obtain ⟨firstOther, leastOther⟩ := of_find?_mergeSort trans total found
      have below : le best other := least other
        (List.mem_of_find?_eq_some firstOther) (List.find?_some found)
      have above : le other best := leastOther best (List.mem_mergeSort.mp listed) matchesBest
      have sameRank : (fun element => matched element && le element other) =
          fun element => matched element && le element best := by
        funext element
        rw [Bool.eq_iff_iff.mpr ⟨fun under => trans _ _ _ under above,
          fun under => trans _ _ _ under below⟩]
      rw [sameRank, first] at firstOther
      exact firstOther.symm

end StableSort

/-! ## Entries -/

namespace Features

/-- Whether a host has every feature that is required. -/
def Provides (host required : Features) : Prop :=
  ∀ feature ∈ required.named, feature.2 = true → feature ∈ host.named

instance (host required : Features) : Decidable (host.Provides required) :=
  inferInstanceAs (Decidable (∀ feature ∈ required.named, _))

theorem satisfies_iff (host required : Features) :
    host.satisfies required = true ↔ host.Provides required := by
  simp only [satisfies, Provides, named, List.forall_mem_cons, Bool.and_eq_true, Bool.or_eq_true,
    Bool.not_eq_true', and_assoc]
  simp
  grind

end Features

namespace CatalogEntry

variable {Op : Type}

theorem priorityLe_iff {left right : CatalogEntry Op} :
    priorityLe left right = true ↔ right.priority ≤ left.priority :=
  decide_eq_true_iff

theorem priorityLe_trans (first second third : CatalogEntry Op) :
    priorityLe first second → priorityLe second third → priorityLe first third := by
  simp only [priorityLe_iff]
  omega

theorem priorityLe_total (left right : CatalogEntry Op) :
    (priorityLe left right || priorityLe right left) = true := by
  rw [Bool.or_eq_true, priorityLe_iff, priorityLe_iff]
  omega

/-- An entry of a key whose requirements the host meets. -/
structure Qualifies (host : Features) (key : OpKey) (entry : CatalogEntry Op) : Prop where
  key_eq : entry.key = key
  provided : host.Provides entry.requires

/-- The entry to select among registrations: it qualifies, every qualified entry registered before
it has a lower priority, and none registered after it has a higher one. -/
structure Preferred (host : Features) (key : OpKey) (before after : List (CatalogEntry Op))
    (entry : CatalogEntry Op) : Prop where
  qualifies : entry.Qualifies host key
  earlier : ∀ other ∈ before, other.Qualifies host key → other.priority < entry.priority
  later : ∀ other ∈ after, other.Qualifies host key → other.priority ≤ entry.priority

end CatalogEntry

/-! ## Keys -/

theorem OpKind.ofName?_name (kind : OpKind) : OpKind.ofName? kind.name = some kind := by
  cases kind <;> decide

theorem OpKind.name_injective {first second : OpKind} (same : first.name = second.name) :
    first = second := by
  have found := OpKind.ofName?_name first
  rw [same, OpKind.ofName?_name] at found
  exact (Option.some.inj found).symm

theorem ComputeType.ofName?_name (compute : ComputeType) :
    ComputeType.ofName? compute.name = some compute := by
  cases compute <;> decide

theorem ComputeType.name_injective {first second : ComputeType} (same : first.name = second.name) :
    first = second := by
  have found := ComputeType.ofName?_name first
  rw [same, ComputeType.ofName?_name] at found
  exact (Option.some.inj found).symm

namespace OpKey

/-- The names of a key, compared by the kind first. -/
def names (key : OpKey) : String ×ₗ String := toLex (key.kind.name, key.compute.name)

theorem names_injective {first second : OpKey} (same : first.names = second.names) :
    first = second := by
  obtain ⟨sameKind, sameCompute⟩ := Prod.mk.inj (toLex_inj.mp same)
  obtain ⟨kind, compute⟩ := first
  obtain ⟨kindSecond, computeSecond⟩ := second
  cases OpKind.name_injective sameKind
  cases ComputeType.name_injective sameCompute
  rfl

theorem nameLe_iff {left right : OpKey} : nameLe left right = true ↔ left.names ≤ right.names := by
  unfold nameLe names
  rw [Prod.Lex.toLex_le_toLex]
  split
  · rename_i same
    simp [same]
  · rename_i different
    simp [different, le_iff_lt_or_eq]

theorem nameLe_trans (first second third : OpKey) :
    nameLe first second → nameLe second third → nameLe first third := by
  simp only [nameLe_iff]
  exact le_trans

theorem nameLe_total (left right : OpKey) : (nameLe left right || nameLe right left) = true := by
  rw [Bool.or_eq_true, nameLe_iff, nameLe_iff]
  exact le_total left.names right.names

end OpKey

/-- A list without repetitions keeps each element once. The recursion is on the length, since the
rest of the list is filtered on the way. -/
theorem nodup_eraseDups {α : Type} [DecidableEq α] (elements : List α) :
    elements.eraseDups.Nodup := by
  match elements with
  | [] => exact List.nodup_nil
  | head :: rest =>
      rw [List.eraseDups_cons, List.nodup_cons]
      constructor
      · simp [List.mem_eraseDups]
      · exact nodup_eraseDups _
termination_by elements.length
decreasing_by exact Nat.lt_succ_of_le (List.length_filter_le _ _)

/-! ## Catalogs -/

namespace Catalog

variable {Op : Type}

/-- The catalog of a host after some registrations, in their order. -/
def built (host : Features) (registrations : List (CatalogEntry Op)) : Catalog Op :=
  registrations.foldl register (empty host)

theorem foldl_register (catalog : Catalog Op) (registrations : List (CatalogEntry Op)) :
    registrations.foldl register catalog =
      ⟨catalog.features, catalog.entries ++ registrations⟩ := by
  induction registrations generalizing catalog with
  | nil => rw [List.append_nil, List.foldl_nil]
  | cons entry registrations inductionHypothesis =>
      rw [List.foldl_cons, inductionHypothesis]
      show Catalog.mk _ ((catalog.entries ++ [entry]) ++ registrations) = _
      rw [List.append_assoc]
      rfl

theorem built_eq (host : Features) (registrations : List (CatalogEntry Op)) :
    built host registrations = ⟨host, registrations⟩ :=
  foldl_register (empty host) registrations

variable {catalog : Catalog Op} {key : OpKey}

theorem candidates_eq_nil_iff :
    catalog.candidates key = [] ↔ ∀ entry ∈ catalog.entries, entry.key ≠ key := by
  rw [List.eq_nil_iff_forall_not_mem]
  constructor
  · intro empty entry listed named
    exact empty entry (mem_candidates.mpr ⟨listed, named⟩)
  · intro others entry listed
    obtain ⟨among, named⟩ := mem_candidates.mp listed
    exact others entry among named

/-- The candidate that a look-up selects, if the host can run any. -/
def selected? (catalog : Catalog Op) (key : OpKey) : Option (CatalogEntry Op) :=
  (catalog.candidates key).find? fun entry => catalog.features.satisfies entry.requires

/-- A look-up gives the factory of the selected candidate, and tells why there is none. -/
theorem lookup_eq (catalog : Catalog Op) (key : OpKey) :
    catalog.lookup key =
      match catalog.selected? key with
      | some entry => .ok entry.factory
      | none =>
          if catalog.candidates key = [] then .error (.unregistered key)
          else .error (.refused (.unsupportedHardware key)) := by
  unfold lookup selected?
  cases candidates : catalog.candidates key with
  | nil => rfl
  | cons entry others =>
      dsimp only
      cases (entry :: others).find? fun entry => catalog.features.satisfies entry.requires with
      | some selected => rfl
      | none => rw [if_neg (List.cons_ne_nil entry others)]

theorem qualifies_iff {entry : CatalogEntry Op} :
    entry.Qualifies catalog.features key ↔
      entry.key = key ∧ catalog.features.satisfies entry.requires = true := by
  rw [Features.satisfies_iff]
  exact ⟨fun qualifies => ⟨qualifies.key_eq, qualifies.provided⟩, fun both => ⟨both.1, both.2⟩⟩

theorem selected?_eq_none_iff :
    catalog.selected? key = none ↔
      ∀ entry ∈ catalog.entries, ¬ entry.Qualifies catalog.features key := by
  unfold selected?
  rw [List.find?_eq_none]
  simp only [mem_candidates, qualifies_iff, and_imp, not_and]

/-- The selected candidate is the preferred entry of the catalog. -/
theorem selected?_eq_some_iff {entry : CatalogEntry Op} :
    catalog.selected? key = some entry ↔
      ∃ before after, catalog.entries = before ++ entry :: after ∧
        entry.Preferred catalog.features key before after := by
  have passed_iff : ∀ other : CatalogEntry Op,
      (decide (other.key = key) && (catalog.features.satisfies other.requires &&
        CatalogEntry.priorityLe other entry)) = true ↔
      other.Qualifies catalog.features key ∧ entry.priority ≤ other.priority := by
    intro other
    rw [Bool.and_eq_true, Bool.and_eq_true, decide_eq_true_iff, CatalogEntry.priorityLe_iff,
      qualifies_iff, and_assoc]
  unfold selected? candidates
  rw [find?_mergeSort_eq_some_iff CatalogEntry.priorityLe_trans CatalogEntry.priorityLe_total,
    List.find?_filter, List.find?_eq_some_iff_append]
  simp only [Bool.decide_and, Bool.decide_eq_true, Bool.not_eq_true', ← Bool.not_eq_true]
  constructor
  · rintro ⟨⟨passed, before, after, split, missed⟩, greatest⟩
    have atMost : ∀ other ∈ catalog.entries, other.Qualifies catalog.features key →
        other.priority ≤ entry.priority := by
      intro other listed qualifies
      obtain ⟨named, satisfied⟩ := qualifies_iff.mp qualifies
      exact CatalogEntry.priorityLe_iff.mp
        (greatest other (List.mem_filter.mpr ⟨listed, decide_eq_true named⟩) satisfied)
    refine ⟨before, after, split, ((passed_iff entry).mp passed).1, fun other early qualifies => ?_,
      fun other late => atMost other (by simp [split, late])⟩
    have short := mt (passed_iff other).mpr (missed other early)
    exact Nat.lt_of_not_le fun above => short ⟨qualifies, above⟩
  · rintro ⟨before, after, split, preferred⟩
    refine ⟨⟨(passed_iff entry).mpr ⟨preferred.qualifies, Nat.le_refl _⟩, before, after, split,
      fun other early passed => ?_⟩, fun other among satisfied => ?_⟩
    · obtain ⟨qualifies, above⟩ := (passed_iff other).mp passed
      exact Nat.not_le_of_lt (preferred.earlier other early qualifies) above
    · obtain ⟨listed, named⟩ := List.mem_filter.mp among
      have qualifies := qualifies_iff.mpr ⟨of_decide_eq_true named, satisfied⟩
      rw [CatalogEntry.priorityLe_iff]
      rw [split, List.mem_append, List.mem_cons] at listed
      rcases listed with early | rfl | late
      · exact Nat.le_of_lt (preferred.earlier other early qualifies)
      · exact Nat.le_refl _
      · exact preferred.later other late qualifies

/-! ## The ends of a look-up -/

theorem lookup_eq_ok_iff {factory : Factory Op} :
    catalog.lookup key = .ok factory ↔
      ∃ entry, catalog.selected? key = some entry ∧ entry.factory = factory := by
  rw [lookup_eq]
  cases catalog.selected? key with
  | some entry => simp
  | none =>
      dsimp only
      split <;> simp

theorem lookup_eq_unsupported_iff :
    catalog.lookup key = .error (.refused (.unsupportedHardware key)) ↔
      catalog.candidates key ≠ [] ∧ catalog.selected? key = none := by
  rw [lookup_eq]
  cases catalog.selected? key with
  | some entry => simp
  | none =>
      dsimp only
      split
      · rename_i empty
        simp [empty]
      · rename_i filled
        simp [filled]

theorem lookup_eq_unregistered_iff :
    catalog.lookup key = .error (.unregistered key) ↔ catalog.candidates key = [] := by
  rw [lookup_eq]
  cases found : catalog.selected? key with
  | some entry =>
      have filled : catalog.candidates key ≠ [] := fun empty => by
        unfold selected? at found
        rw [empty] at found
        cases found
      simp [filled]
  | none =>
      dsimp only
      split
      · rename_i empty
        simp [empty]
      · rename_i filled
        simp [filled]

/-! ## The keys of a catalog -/

theorem mem_keys : key ∈ catalog.keys ↔ ∃ entry ∈ catalog.entries, entry.key = key := by
  unfold keys
  rw [List.mem_mergeSort, List.mem_eraseDups, List.mem_map]

/-- Keys are listed once each, in the order of their names. -/
theorem keys_sorted (catalog : Catalog Op) :
    catalog.keys.Pairwise fun left right => left.names < right.names := by
  have distinct : catalog.keys.Nodup :=
    (List.mergeSort_perm _ _).nodup_iff.mpr (nodup_eraseDups _)
  have ordered : catalog.keys.Pairwise fun left right => OpKey.nameLe left right = true :=
    List.pairwise_mergeSort OpKey.nameLe_trans OpKey.nameLe_total _
  refine (ordered.and distinct).imp fun {left right} both => ?_
  exact lt_of_le_of_ne (OpKey.nameLe_iff.mp both.1) fun same => both.2 (OpKey.names_injective same)

/-- Catalogs with entries for the same keys list the same keys. -/
theorem keys_congr {other : Catalog Op} (same : ∀ key, key ∈ catalog.keys ↔ key ∈ other.keys) :
    catalog.keys = other.keys := by
  have nodup : ∀ catalog : Catalog Op, catalog.keys.Nodup := fun catalog =>
    (keys_sorted catalog).imp fun below equal => below.ne (congrArg OpKey.names equal)
  refine List.Perm.eq_of_pairwise (fun left right _ _ below above => ?_) (keys_sorted catalog)
    (keys_sorted other) ((List.perm_ext_iff_of_nodup (nodup catalog) (nodup other)).mpr same)
  exact absurd above below.asymm

/-- A catalog selects the best entry that its host can run, and lists its keys by name.

For any registrations on any host, a look-up of a key gives the factory of the entry of the key
that, among those whose requirements the host meets, has the greatest priority, and among equals was
registered first. It fails for unsupported hardware exactly if there are entries of the key and none
qualifies, and for an unregistered key exactly if there is no entry; there is no other end. The keys
are listed once each, in the strict order of their names, which registrations of the same keys in
any other order, and for any other host, do not change. -/
theorem lookup_selects_preferred (host : Features) (registrations : List (CatalogEntry Op))
    (key : OpKey) :
    let catalog := built host registrations
    (∀ factory, catalog.lookup key = .ok factory ↔
      ∃ before entry after, registrations = before ++ entry :: after ∧
        entry.Preferred host key before after ∧ entry.factory = factory) ∧
    (catalog.lookup key = .error (.refused (.unsupportedHardware key)) ↔
      (∃ entry ∈ registrations, entry.key = key) ∧
        ∀ entry ∈ registrations, ¬ entry.Qualifies host key) ∧
    (catalog.lookup key = .error (.unregistered key) ↔
      ¬ ∃ entry ∈ registrations, entry.key = key) ∧
    ((∃ factory, catalog.lookup key = .ok factory) ∨
      catalog.lookup key = .error (.refused (.unsupportedHardware key)) ∨
      catalog.lookup key = .error (.unregistered key)) ∧
    (∀ other, other ∈ catalog.keys ↔ ∃ entry ∈ registrations, entry.key = other) ∧
    catalog.keys.Pairwise (fun left right => left.names < right.names) ∧
    ∀ (otherHost : Features) (others : List (CatalogEntry Op)),
      (∀ other, (∃ entry ∈ others, entry.key = other) ↔
        ∃ entry ∈ registrations, entry.key = other) →
          (built otherHost others).keys = catalog.keys := by
  intro catalog
  have catalogEq : catalog = ⟨host, registrations⟩ := built_eq host registrations
  have featuresEq : catalog.features = host := by rw [catalogEq]
  have entriesEq : catalog.entries = registrations := by rw [catalogEq]
  have registered : catalog.candidates key ≠ [] ↔ ∃ entry ∈ registrations, entry.key = key := by
    rw [Ne, candidates_eq_nil_iff, entriesEq]
    simp
  have keysEq : ∀ other, other ∈ catalog.keys ↔ ∃ entry ∈ registrations, entry.key = other := by
    intro other
    rw [mem_keys, entriesEq]
  refine ⟨fun factory => ?_, ?_, ?_, ?_, keysEq, keys_sorted catalog,
    fun otherHost others same => ?_⟩
  · simp only [lookup_eq_ok_iff, selected?_eq_some_iff, entriesEq, featuresEq]
    constructor
    · rintro ⟨entry, ⟨before, after, split, preferred⟩, made⟩
      exact ⟨before, entry, after, split, preferred, made⟩
    · rintro ⟨before, entry, after, split, preferred, made⟩
      exact ⟨entry, ⟨before, after, split, preferred⟩, made⟩
  · rw [lookup_eq_unsupported_iff, registered, selected?_eq_none_iff, entriesEq, featuresEq]
  · rw [lookup_eq_unregistered_iff, ← registered, not_not]
  · cases found : catalog.selected? key with
    | some entry => exact .inl ⟨entry.factory, lookup_eq_ok_iff.mpr ⟨entry, found, rfl⟩⟩
    | none =>
        by_cases empty : catalog.candidates key = []
        · exact .inr (.inr (lookup_eq_unregistered_iff.mpr empty))
        · exact .inr (.inl (lookup_eq_unsupported_iff.mpr ⟨empty, found⟩))
  · refine keys_congr fun other => ?_
    rw [keysEq, mem_keys, built_eq]
    exact same other

/-- An entry for absolute values of single precision that makes nothing. -/
def blankEntry (name : String) (requires : Features) (priority : Nat) : CatalogEntry Unit :=
  ⟨⟨.abs, .fp32⟩, requires, priority, ⟨name, fun _ => pure ()⟩⟩

/-- Four entries of one key: the one of greatest priority cannot run on the host, two are equal
after it, and the first of these is selected. Registered backwards, they give the same keys. -/
theorem lookup_selects_preferred_tie :
    let low := blankEntry "low" .portable 3
    let unfit := blankEntry "unfit" { avx2 := true } 9
    let first := blankEntry "first" { avx := true } 7
    let second := blankEntry "second" .portable 7
    (built { avx := true } [low, unfit, first, second]).lookup ⟨.abs, .fp32⟩ = .ok first.factory ∧
      (built .portable [second, first, unfit, low]).keys =
        (built { avx := true } [low, unfit, first, second]).keys := by
  intro low unfit first second
  obtain ⟨selects, _, _, _, _, _, sameKeys⟩ := lookup_selects_preferred { avx := true }
    [low, unfit, first, second] ⟨.abs, .fp32⟩
  have preferred : first.Preferred { avx := true } ⟨.abs, .fp32⟩ [low, unfit] [second] := by
    refine ⟨⟨rfl, by decide⟩, fun other listed qualifies => ?_, fun other listed _ => ?_⟩
    · rcases List.mem_cons.mp listed with rfl | listed
      · decide
      · cases List.mem_singleton.mp listed
        exact absurd qualifies.provided (by decide)
    · cases List.mem_singleton.mp listed
      decide
  exact ⟨(selects _).mpr ⟨[low, unfit], first, [second], rfl, preferred, rfl⟩,
    sameKeys .portable _ fun other => by simp [low, unfit, first, second, blankEntry]⟩

end Catalog

end TensorEngine
