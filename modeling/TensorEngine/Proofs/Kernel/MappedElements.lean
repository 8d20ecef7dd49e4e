import TensorEngine.Proofs.Kernel.Combining

/-!
Contract: mappings and conversions write the function of every element of their input to its place.

Owns:
- `ElementMap`, a function of one element given as bytes, and the one of every body of a mapping
  and of a conversion;
- `ElementMap.Fills`, an output that holds the mapped elements and is otherwise as it was;
- the theorems on the contents that mappings and conversions give for their outputs.

Does not own: which mapping or conversion is made for a node.
-/

namespace TensorEngine

open TensorEngine.Numeric

/-! ## Functions of elements -/

/-- A function of elements of one width to elements of another, given and left as bytes. -/
structure ElementMap where
  sourceWidth : Nat
  width : Nat
  apply : List UInt8 → Checked (List UInt8)

def ElementMap.of {α β : Type} [Storage α] [Storage β] (function : α → Checked β) :
    ElementMap where
  sourceWidth := Storage.width α
  width := Storage.width β
  apply element := Storage.encode <$> function (Storage.decode element)

def MappingBody.map : MappingBody → ElementMap
  | single function => .of fun x : Float32 => .ok (function.apply x)
  | half function => .of fun x : Half => .ok (Half.ofFloat32 (function.apply x.toFloat32))
  | copyCodes => .of fun code : UInt8 => .ok code
  | confineCodes true low high => .of (Mapping.confined (α := Int8) low high)
  | confineCodes false low high => .of (Mapping.confined (α := UInt8) low high)
  | lookUp table => .of fun code : UInt8 => .ok (table.entry code)

def ConversionBody.map : ConversionBody → ElementMap
  | narrow => .of fun x : Float32 => .ok (Half.ofFloat32 x)
  | widen => .of fun x : Half => .ok x.toFloat32
  | quantize true scale => .of (Conversion.toCode (α := Int8) true scale)
  | quantize false scale => .of (Conversion.toCode (α := UInt8) false scale)
  | dequantize true scale => .of (Conversion.ofCode (α := Int8) scale)
  | dequantize false scale => .of (Conversion.ofCode (α := UInt8) scale)

/-- An output that holds the function of each of so many elements of an input at its place, and is
otherwise as it was. -/
structure ElementMap.Fills (map : ElementMap) (count : Nat) (source room : Buffer)
    (written : Bytes) : Prop where
  element : ∀ place < count,
    map.apply (elementBytes source.bytes map.sourceWidth place) =
      .ok (elementBytes written map.width place)
  rest : ∀ index, count * map.width ≤ index → written[index]? = room.bytes[index]?
  size : written.size = room.bytes.size

/-! ## Contents -/

/-- A total function is mapped over buffers that are large enough. -/
theorem mapElements_fills {α β : Type} [Storage α] [Storage β] {function : α → Checked β}
    (total : ∀ x, ∃ y, function x = .ok y) (schedule : Schedule) (tileElements lanes : Nat)
    {count : Nat} {inputs : List Buffer} {source room : Buffer}
    (first : inputs[0]? = some source) (fits : source.Fits (Storage.width α) count)
    (fitsRoom : room.Fits (Storage.width β) count) :
    ∃ bytes, mapElements function schedule tileElements lanes count inputs room = .ok bytes ∧
      (ElementMap.of function).Fills count source room (overlay room.bytes bytes) := by
  obtain ⟨taken, viewed, front, size, fetches⟩ := fits.exists_front
  obtain ⟨canvas, viewedRoom, frontRoom, sizeRoom, _⟩ := fitsRoom.exists_front
  have element : ∀ place < count, fetch (decodeAll source.bytes) place =
      .ok (Storage.decode (elementBytes source.bytes (Storage.width α) place) : α) :=
    fun place inside => (fetch_front front inside).symm.trans (fetches place inside)
  obtain ⟨written, computes⟩ :=
    @exists_computes _ (mappedElement function (decodeAll source.bytes)) count
      (fun place inside => by
        obtain ⟨y, value⟩ :=
          total (Storage.decode (elementBytes source.bytes (Storage.width α) place))
        exact ⟨y, bind_eq_ok_iff.mpr ⟨_, element place inside, value⟩⟩)
  refine ⟨encodeAll written, mapElements_eq_ok_iff.mpr ⟨_, ⟨source, first, viewed⟩,
    (front_eq_ok_iff.mp front).1, _, written, viewedRoom, (front_eq_ok_iff.mp frontRoom).1,
    computes, rfl⟩, ?_, fun index past => ?_, overlay_size _ _⟩
  · intro place inside
    obtain ⟨y, found, value⟩ := computes.exists_element inside
    rw [Nat.zero_add] at value
    obtain ⟨x, fetched, value⟩ := bind_eq_ok_iff.mp value
    cases (element place inside).symm.trans fetched
    have enough : written.size * Storage.width β ≤ room.bytes.size := by
      rw [computes.size_eq]
      exact fitsRoom.enough
    show Storage.encode <$> function
        (Storage.decode (elementBytes source.bytes (Storage.width α) place)) =
      .ok (elementBytes (overlay room.bytes (encodeAll written)) (Storage.width β) place)
    rw [value, elementBytes_overlay enough found]
    rfl
  · rw [overlay_getElem?, encodeAll_size, computes.size_eq,
      if_neg fun front => Nat.not_lt.mpr past front.1]

/-- A sound mapping fills its output by its function. -/
theorem Mapping.contents_fills {mapping : Mapping} (sound : mapping.body.Sound)
    (schedule : Schedule) {inputs : List Buffer} {source room : Buffer}
    (first : inputs[0]? = some source)
    (fits : source.Fits mapping.body.map.sourceWidth mapping.count)
    (fitsRoom : room.Fits mapping.body.map.width mapping.count) :
    ∃ bytes, mapping.contents schedule inputs room = .ok bytes ∧
      mapping.body.map.Fills mapping.count source room (overlay room.bytes bytes) := by
  have confines : ∀ {α : Type} [Code α] {low high : Int32}, low ≤ high → ∀ code : α,
      ∃ confined, Mapping.confined low high code = .ok confined := by
    intro α _ low high ordered code
    obtain ⟨confined, ran⟩ :
        ∃ confined, confineCode (Code.toInt32 code) low high = .ok confined :=
      exists_confineCode ordered
    exact ⟨_, map_eq_ok_iff.mpr ⟨confined, ran, rfl⟩⟩
  unfold contents
  dsimp only
  generalize mapping.body = body at *
  cases body with
  | single function =>
      exact mapElements_fills (fun _ => ⟨_, rfl⟩) schedule _ _ first fits fitsRoom
  | half function =>
      exact mapElements_fills (fun _ => ⟨_, rfl⟩) schedule _ _ first fits fitsRoom
  | copyCodes => exact mapElements_fills (fun _ => ⟨_, rfl⟩) schedule _ _ first fits fitsRoom
  | lookUp table => exact mapElements_fills (fun _ => ⟨_, rfl⟩) schedule _ _ first fits fitsRoom
  | confineCodes signed low high =>
      cases signed with
      | true => exact mapElements_fills (confines sound) schedule _ _ first fits fitsRoom
      | false => exact mapElements_fills (confines sound) schedule _ _ first fits fitsRoom

/-- A sound conversion fills its output by its function. -/
theorem Conversion.contents_fills {conversion : Conversion} (sound : conversion.body.Sound)
    (schedule : Schedule) {inputs : List Buffer} {source room : Buffer}
    (first : inputs[0]? = some source)
    (fits : source.Fits conversion.body.map.sourceWidth conversion.count)
    (fitsRoom : room.Fits conversion.body.map.width conversion.count) :
    ∃ bytes, conversion.contents schedule inputs room = .ok bytes ∧
      conversion.body.map.Fills conversion.count source room (overlay room.bytes bytes) := by
  have codes : ∀ {α : Type} [Code α] (signed : Bool) (scale : Quantization) (x : Float32),
      ∃ code : α, toCode signed scale x = .ok code := by
    intro α _ signed scale x
    obtain ⟨code, ran⟩ := scale.exists_quantize (codeElement signed) x
    exact ⟨_, map_eq_ok_iff.mpr ⟨code, ran, rfl⟩⟩
  unfold contents
  dsimp only
  generalize conversion.body = body at *
  cases body with
  | narrow => exact mapElements_fills (fun _ => ⟨_, rfl⟩) schedule _ _ first fits fitsRoom
  | widen => exact mapElements_fills (fun _ => ⟨_, rfl⟩) schedule _ _ first fits fitsRoom
  | quantize signed scale =>
      cases signed with
      | true => exact mapElements_fills (codes true scale) schedule _ _ first fits fitsRoom
      | false => exact mapElements_fills (codes false scale) schedule _ _ first fits fitsRoom
  | dequantize signed scale =>
      cases signed with
      | true =>
          exact mapElements_fills (Code.within_signed.exists_dequantize sound) schedule _ _ first
            fits fitsRoom
      | false =>
          exact mapElements_fills (Code.within_unsigned.exists_dequantize sound) schedule _ _ first
            fits fitsRoom

end TensorEngine
