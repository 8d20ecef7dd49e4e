import TensorEngine.Catalog.Standard
import TensorEngine.Proofs.Checked

/-!
Contract: what the look-up of a catalog of the library's own operators finds.

Owns:
- the factories that a look-up can give for a key, and the family of operators of each;
- the theorem that a look-up of an admitted key never fails, on any host.

Does not own: which operators the factories make.
-/

namespace TensorEngine

theorem OpKind.isUnary_of_others {kind : OpKind} (notPool : kind ≠ .globalAveragePooling2d)
    (notProduct : kind ≠ .fullyConnected) (notBinary : ¬ kind.isBinary = true) :
    kind.isUnary = true := by
  cases kind with
  | globalAveragePooling2d => exact absurd rfl notPool
  | fullyConnected => exact absurd rfl notProduct
  | _ => first | rfl | exact absurd rfl notBinary

theorem OpKind.ne_of_isBinary {kind : OpKind} (binary : kind.isBinary = true) :
    kind ≠ .convert ∧ kind ≠ .fullyConnected := by
  cases kind <;> first | decide | cases binary

/-- A factory of the family of operators that the kind of a key belongs to. -/
inductive StandardOperator.FamilyFor (key : OpKey) : Factory StandardOperator → Prop where
  | conversion (convert : key.kind = .convert) :
      FamilyFor key ((Conversion.factory key.compute).map .conversion)
  | pooling (pool : key.kind = .globalAveragePooling2d) :
      FamilyFor key ((Pooling.factory key.compute).map .pooling)
  | product (multiply : key.kind = .fullyConnected) :
      FamilyFor key ((Product.factory key.compute).map .product)
  | combination (binary : key.kind.isBinary = true) (lanes : Nat) :
      FamilyFor key ((Combination.factory key.compute lanes).map .combination)
  | mapping (unary : key.kind.isUnary = true) (notConvert : key.kind ≠ .convert) (lanes : Nat) :
      FamilyFor key ((Mapping.factory key.compute lanes).map .mapping)

namespace Catalog

/-- A factory that the library has for a key: the portable one or the one with lanes. -/
def Offers (key : OpKey) (factory : Factory StandardOperator) : Prop :=
  factory = StandardOperator.portableFactory key ∨
    StandardOperator.laneFactory? key blockLanes = some factory

theorem Offers.family {key : OpKey} {factory : Factory StandardOperator}
    (offers : Offers key factory) : StandardOperator.FamilyFor key factory := by
  rcases offers with rfl | lane
  · unfold StandardOperator.portableFactory
    split
    · rename_i convert
      exact .conversion convert
    · rename_i notConvert
      split
      · rename_i pool
        exact .pooling pool
      · rename_i notPool
        split
        · rename_i multiply
          exact .product multiply
        · rename_i notProduct
          split
          · rename_i binary
            exact .combination binary 1
          · rename_i notBinary
            have unary := OpKind.isUnary_of_others notPool notProduct notBinary
            exact .mapping unary notConvert 1
  · unfold StandardOperator.laneFactory? at lane
    split at lane
    · cases lane
    · split at lane
      · rename_i binary
        cases lane
        exact .combination binary blockLanes
      · split at lane
        · rename_i unary
          cases lane
          exact .mapping unary.1 unary.2 blockLanes
        · cases lane

theorem mem_standardEntries {key : OpKey} {entry : CatalogEntry StandardOperator}
    (listed : entry ∈ standardEntries key) : entry.key = key ∧ Offers key entry.factory := by
  unfold standardEntries at listed
  rcases List.mem_cons.mp listed with rfl | lane
  · exact ⟨rfl, .inl rfl⟩
  · rw [Option.mem_toList, Option.map_eq_some_iff] at lane
    obtain ⟨factory, made, rfl⟩ := lane
    exact ⟨rfl, .inr made⟩

theorem mem_candidates {catalog : Catalog Op} {key : OpKey} {entry : CatalogEntry Op} :
    entry ∈ catalog.candidates key ↔ entry ∈ catalog.entries ∧ entry.key = key := by
  unfold candidates
  rw [List.mem_mergeSort, List.mem_filter, decide_eq_true_eq]

theorem offers_of_lookup {features : Features} {key : OpKey}
    {factory : Factory StandardOperator} (found : (standard features).lookup key = .ok factory) :
    Offers key factory := by
  unfold lookup at found
  split at found
  · cases found
  · rename_i listed
    split at found
    · rename_i entry chosen
      cases found
      obtain ⟨among, named⟩ := mem_candidates.mp (List.mem_of_find?_eq_some chosen)
      obtain ⟨other, _, entries⟩ := List.mem_flatMap.mp among
      obtain ⟨sameKey, offers⟩ := mem_standardEntries entries
      rw [← named, sameKey]
      exact offers
    · cases found

/-- Every host finds a factory for every admitted key, since the portable one requires nothing. -/
theorem lookup_admitted (features : Features) {key : OpKey} (admitted : key ∈ OpKey.admitted) :
    ∃ factory, (standard features).lookup key = .ok factory ∧ Offers key factory := by
  have portable : CatalogEntry.mk key .portable 0 (StandardOperator.portableFactory key) ∈
      (standard features).candidates key :=
    mem_candidates.mpr ⟨List.mem_flatMap.mpr ⟨key, admitted, List.mem_cons_self⟩, rfl⟩
  have satisfied : ((standard features).candidates key).find?
      (fun entry => (standard features).features.satisfies entry.requires) ≠ none := by
    intro missing
    have refused := List.find?_eq_none.mp missing _ portable
    exact refused (Features.satisfies_portable _)
  obtain ⟨entry, chosen⟩ := Option.ne_none_iff_exists'.mp satisfied
  have found : (standard features).lookup key = .ok entry.factory := by
    unfold lookup
    split
    · rename_i empty
      rw [empty] at portable
      cases portable
    · rw [chosen]
  exact ⟨entry.factory, found, offers_of_lookup found⟩

end Catalog

end TensorEngine
