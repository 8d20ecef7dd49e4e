import Mathlib.Data.List.Nodup
import TensorEngine.Proofs.Kernel.Pointwise
import TensorEngine.Proofs.Tensor.MultiIndex

/-!
Contract: a loop over tiles is a sequence of writes, one for every element of its output.

Owns:
- `elementBytes`, the bytes of one element of a buffer;
- `noteWrites`, by which a loop over tiles notes its writes, and the theorem that it does nothing
  else to an output;
- the theorem that the tiles of an output have each of its places once, in whatever order;
- `putElements`, the effect of writes on the bytes of a buffer.

Does not own: which elements a kernel writes.
-/

namespace TensorEngine

/-! ## Bytes of elements -/

def elementBytes (bytes : Bytes) (width place : Nat) : List UInt8 :=
  (bytes.extract (place * width) (place * width + width)).toList

theorem elementBytes_getElem? (bytes : Bytes) {width : Nat} (place : Nat) {digit : Nat}
    (within : digit < width) :
    (elementBytes bytes width place)[digit]? = bytes[place * width + digit]? := by
  unfold elementBytes
  rw [Array.getElem?_toList, Array.getElem?_extract]
  split
  · rfl
  · rw [Array.getElem?_eq_none (by omega)]

/-- Bytes are the same when their elements are up to some place, and all digits from there on. -/
theorem bytes_ext {bytes others : Bytes} {width count : Nat} (positive : 0 < width)
    (elements : ∀ place < count, elementBytes bytes width place = elementBytes others width place)
    (rest : ∀ index, count * width ≤ index → bytes[index]? = others[index]?) : bytes = others := by
  apply Array.ext_getElem?
  intro index
  rcases Nat.lt_or_ge index (count * width) with inside | past
  · have same := congrArg (·[index % width]?)
      (elements (index / width) ((Nat.div_lt_iff_lt_mul positive).mpr inside))
    rwa [elementBytes_getElem? _ _ (Nat.mod_lt index positive),
      elementBytes_getElem? _ _ (Nat.mod_lt index positive), Nat.div_add_mod'] at same
  · exact rest index past

theorem decodeAll_getElem? {α : Type} [Storage α] {bytes : Bytes} {place : Nat}
    (inside : place < bytes.size / Storage.width α) :
    (decodeAll bytes : Array α)[place]? =
      some (Storage.decode (elementBytes bytes (Storage.width α) place)) := by
  unfold decodeAll
  rw [Array.getElem?_ofFn, dif_pos inside]
  rfl

/-- A digit of the byte sequence of elements is that of its element. -/
theorem encodeAll_getElem? {α : Type} [Storage α] {elements : Array α} {place : Nat} {element : α}
    (found : elements[place]? = some element) {digit : Nat} (within : digit < Storage.width α) :
    (encodeAll elements)[place * Storage.width α + digit]? = (Storage.encode element)[digit]? := by
  obtain ⟨elements⟩ := elements
  unfold encodeAll
  rw [List.getElem?_toArray] at found ⊢
  induction elements generalizing place with
  | nil => cases found
  | cons first elements inductionHypothesis =>
      rw [List.flatMap_cons]
      cases place with
      | zero =>
          cases found
          rw [Nat.zero_mul, Nat.zero_add,
            List.getElem?_append_left (by rw [Storage.encode_length]; exact within)]
      | succ place =>
          have later : (place + 1) * Storage.width α + digit =
              (Storage.encode first).length + (place * Storage.width α + digit) := by
            rw [Storage.encode_length, Nat.succ_mul]
            omega
          rw [later, List.getElem?_append_right (Nat.le_add_right _ _), Nat.add_sub_cancel_left]
          exact inductionHypothesis found

/-! ## Writes of tiles -/

structure Write (α : Type) where
  place : Nat
  element : α
deriving Repr

section Writes

variable {α : Type}

def chunkWrites (offset : Nat) (chunk : Array α) : List (Write α) :=
  (chunk.toList.zipIdx offset).map fun entry => ⟨entry.2, entry.1⟩

theorem chunkWrites_places (offset : Nat) (chunk : Array α) :
    (chunkWrites offset chunk).map (·.place) = List.range' offset chunk.size := by
  unfold chunkWrites
  rw [List.map_map]
  exact List.zipIdx_map_snd _ _

theorem mem_chunkWrites {offset : Nat} {chunk : Array α} {write : Write α}
    (listed : write ∈ chunkWrites offset chunk) :
    offset ≤ write.place ∧ chunk[write.place - offset]? = some write.element := by
  obtain ⟨entry, among, rfl⟩ := List.mem_map.mp listed
  obtain ⟨after, found⟩ := List.mk_mem_zipIdx_iff_le_and_getElem?_sub.mp among
  exact ⟨after, by rw [← Array.getElem?_toList]; exact found⟩

/-- Notes the writes of a chunk after those of earlier ones. -/
def noteWrites (log : List (Write α)) (offset : Nat) (chunk : Array α) : List (Write α) :=
  log ++ chunkWrites offset chunk

def Write.applyTo (canvas : Array α) (write : Write α) : Array α :=
  canvas.setIfInBounds write.place write.element

/-- Of writes to different places, the one to a place alone changes what is read there. -/
theorem foldl_writes {σ β : Type} {put : σ → Write α → σ} (holds : σ → Prop) (read : σ → β)
    (value : α → β) {place : Nat} {writes : List (Write α)}
    (step : ∀ write ∈ writes, ∀ state, holds state → holds (put state write) ∧
      read (put state write) = if write.place = place then value write.element else read state)
    (once : (writes.map (·.place)).Nodup) {state : σ} (initially : holds state) :
    (∀ write ∈ writes, write.place = place →
      read (writes.foldl put state) = value write.element) ∧
    (place ∉ writes.map (·.place) → read (writes.foldl put state) = read state) := by
  induction writes generalizing state with
  | nil => exact ⟨by simp, fun _ => rfl⟩
  | cons first writes inductionHypothesis =>
      rw [List.forall_mem_cons] at step
      rw [List.map_cons, List.nodup_cons] at once
      obtain ⟨kept, changed⟩ := step.1 state initially
      obtain ⟨later, others⟩ := inductionHypothesis step.2 once.2 kept
      refine ⟨List.forall_mem_cons.mpr ⟨?_, later⟩, fun outside => ?_⟩
      · rintro rfl
        exact (others once.1).trans (changed.trans (if_pos rfl))
      · rw [List.map_cons, List.mem_cons, not_or] at outside
        exact (others outside.2).trans (changed.trans (if_neg (Ne.symm outside.1)))

theorem foldl_applyTo_size (writes : List (Write α)) (canvas : Array α) :
    (writes.foldl Write.applyTo canvas).size = canvas.size := by
  induction writes generalizing canvas with
  | nil => rfl
  | cons write writes inductionHypothesis =>
      exact (inductionHypothesis _).trans Array.size_setIfInBounds

/-- Elements that are written to different places of a canvas are all there afterwards. -/
theorem foldl_applyTo_getElem? {writes : List (Write α)} (once : (writes.map (·.place)).Nodup)
    {canvas : Array α} {write : Write α} (listed : write ∈ writes)
    (inside : write.place < canvas.size) :
    (writes.foldl Write.applyTo canvas)[write.place]? = some write.element := by
  refine (foldl_writes (fun canvas : Array α => write.place < canvas.size)
    (fun canvas => canvas[write.place]?) some (fun other _ canvas inside => ⟨?_, ?_⟩) once
    inside).1 write listed rfl
  · exact Nat.lt_of_lt_of_eq inside Array.size_setIfInBounds.symm
  · unfold Write.applyTo
    rw [Array.getElem?_setIfInBounds]
    split
    · rename_i same
      rw [if_pos (by omega)]
    · rfl

theorem writeAt_eq_foldl (canvas : Array α) (offset : Nat) (chunk : Array α) :
    writeAt canvas offset chunk = (chunkWrites offset chunk).foldl Write.applyTo canvas := by
  obtain ⟨chunk⟩ := chunk
  unfold writeAt chunkWrites
  rw [List.size_toArray, List.foldl_map]
  simp only [List.getElem?_toArray]
  induction chunk generalizing canvas offset with
  | nil => rfl
  | cons first chunk inductionHypothesis =>
      rw [List.length_cons, List.range_succ_eq_map, List.foldl_cons, List.foldl_map,
        List.zipIdx_cons, List.foldl_cons]
      show List.foldl _ (canvas.setIfInBounds (offset + 0) first) _ = _
      rw [Nat.add_zero]
      have rest := inductionHypothesis (canvas.setIfInBounds offset first) (offset + 1)
      simp only [List.getElem?_cons_succ]
      simp only [Nat.succ_eq_add_one, Nat.add_comm _ 1, ← Nat.add_assoc] at rest ⊢
      exact rest

/-- A loop over tiles leaves what its writes leave, one after the other. -/
theorem foldTiles_writeAt (work : List Tile) (canvas : Array α) (log : List (Write α))
    (body : Tile → Checked (Array α)) :
    foldTiles writeAt work (log.foldl Write.applyTo canvas) body =
      (·.foldl Write.applyTo canvas) <$> foldTiles noteWrites work log body := by
  unfold foldTiles
  induction work generalizing log with
  | nil => rfl
  | cons tile work inductionHypothesis =>
      rw [List.foldlM_cons, List.foldlM_cons]
      cases ran : body tile with
      | error breach => rfl
      | ok chunk =>
          have noted : writeAt (log.foldl Write.applyTo canvas) tile.offset chunk =
              (noteWrites log tile.offset chunk).foldl Write.applyTo canvas := by
            rw [writeAt_eq_foldl, noteWrites, List.foldl_append]
          show work.foldlM _ (writeAt (log.foldl Write.applyTo canvas) tile.offset chunk) = _
          rw [noted, inductionHypothesis]
          rfl

def Tile.places (tile : Tile) : List Nat :=
  List.range' tile.offset tile.length

/-- Tiles whose bodies give the elements of their places are written element by element. -/
theorem exists_foldTiles_noteWrites {work : List Tile} {body : Tile → Checked (Array α)}
    {element : Nat → Checked α}
    (bodies : ∀ tile ∈ work, ∃ chunk, body tile = .ok chunk ∧
      Computes element tile.offset tile.length chunk) (log : List (Write α)) :
    ∃ writes, foldTiles noteWrites work log body = .ok (log ++ writes) ∧
      writes.map (·.place) = work.flatMap Tile.places ∧
      ∀ write ∈ writes, element write.place = .ok write.element := by
  induction work generalizing log with
  | nil => exact ⟨[], by rw [List.append_nil]; rfl, rfl, by simp⟩
  | cons tile work inductionHypothesis =>
      rw [List.forall_mem_cons] at bodies
      obtain ⟨⟨chunk, ran, computes⟩, bodiesRest⟩ := bodies
      obtain ⟨writes, ranRest, places, elements⟩ :=
        inductionHypothesis bodiesRest (noteWrites log tile.offset chunk)
      refine ⟨chunkWrites tile.offset chunk ++ writes, ?_, ?_, ?_⟩
      · unfold foldTiles at ranRest ⊢
        rw [List.foldlM_cons, ran, ← List.append_assoc]
        exact ranRest
      · rw [List.map_append, chunkWrites_places, places, computes.size_eq, List.flatMap_cons]
        rfl
      · intro write listed
        rcases List.mem_append.mp listed with here | later
        · obtain ⟨after, found⟩ := mem_chunkWrites here
          have computed := computes.element_eq _ _ found
          rwa [Nat.add_sub_cancel' after] at computed
        · exact elements write later

end Writes

/-! ## Places of tiles -/

/-- Consecutive tiles have the places of an output in order. -/
theorem places_tiles (total size : Nat) :
    (tiles total size).flatMap Tile.places = List.range total := by
  unfold tiles
  dsimp only
  have positive : 0 < max size 1 := by omega
  generalize max size 1 = step at positive
  rw [List.flatMap_map]
  have upTo : ∀ count, (List.range count).flatMap
      (fun index => Tile.places ⟨index * step, min step (total - index * step)⟩) =
        List.range (min (count * step) total) := by
    intro count
    induction count with
    | zero => rw [Nat.zero_mul, Nat.zero_min]; rfl
    | succ count inductionHypothesis =>
        rw [List.range_succ, List.flatMap_append, inductionHypothesis, List.flatMap_singleton,
          List.range_eq_range', List.range_eq_range', Nat.succ_mul]
        unfold Tile.places
        dsimp only
        rcases Nat.le_total (count * step) total with before | after
        · have next := @List.range'_append_1 0 (count * step) (min step (total - count * step))
          rw [Nat.zero_add] at next
          rw [Nat.min_eq_left before, next, show count * step + min step (total - count * step) =
            min (count * step + step) total by omega]
        · rw [Nat.sub_eq_zero_of_le after, Nat.min_zero, List.range'_zero, List.append_nil,
            Nat.min_eq_right after, Nat.min_eq_right (Nat.le_add_right_of_le after)]
  have enough : total ≤ (total + step - 1) / step * step := by
    have most := @Nat.lt_div_mul_add (total + step - 1) _ positive
    omega
  rw [upTo, Nat.min_eq_right enough]

/-- Tiles in any order have every place of an output once. -/
theorem Schedule.places_perm (schedule : Schedule) (total size : Nat) :
    ((schedule.order (tiles total size)).flatMap Tile.places).Perm (List.range total) := by
  rw [← places_tiles total size]
  exact (schedule.perm _).flatMap_right _

/-! ## Effect of writes -/

def putElement (bytes : Bytes) (write : Write (List UInt8)) : Bytes :=
  writeAt bytes (write.place * write.element.length) write.element.toArray

/-- Puts elements at their places, one after the other. -/
def putElements (bytes : Bytes) (writes : List (Write (List UInt8))) : Bytes :=
  writes.foldl putElement bytes

theorem putElements_size (bytes : Bytes) (writes : List (Write (List UInt8))) :
    (putElements bytes writes).size = bytes.size := by
  unfold putElements
  induction writes generalizing bytes with
  | nil => rfl
  | cons write writes inductionHypothesis =>
      exact (inductionHypothesis _).trans (writeAt_size _ _ _)

section Effect

variable {width : Nat}

theorem putElement_getElem? {write : Write (List UInt8)} (sized : write.element.length = width)
    {bytes : Bytes} {place digit : Nat} (within : digit < width)
    (inside : place * width + digit < bytes.size) :
    (putElement bytes write)[place * width + digit]? =
      if write.place = place then write.element[digit]? else bytes[place * width + digit]? := by
  unfold putElement
  rw [writeAt_getElem?, List.size_toArray, sized]
  rcases Nat.lt_trichotomy write.place place with before | rfl | after
  · have past := row_end_le width before
    rw [if_neg (by omega), if_neg (Nat.ne_of_lt before)]
  · rw [if_pos (by omega), if_pos rfl, Nat.add_sub_cancel_left, List.getElem?_toArray]
  · have ahead := row_end_le width after
    rw [if_neg (by omega), if_neg (Nat.ne_of_gt after)]

/-- Elements that are put at different places are all there, and nothing else has changed. -/
theorem putElements_getElem? {writes : List (Write (List UInt8))}
    (sized : ∀ write ∈ writes, write.element.length = width)
    (once : (writes.map (·.place)).Nodup) {bytes : Bytes} {place digit : Nat}
    (within : digit < width) (inside : place * width + digit < bytes.size) :
    (∀ write ∈ writes, write.place = place →
      (putElements bytes writes)[place * width + digit]? = write.element[digit]?) ∧
    (place ∉ writes.map (·.place) →
      (putElements bytes writes)[place * width + digit]? = bytes[place * width + digit]?) :=
  foldl_writes (fun bytes : Bytes => place * width + digit < bytes.size)
    (fun bytes => bytes[place * width + digit]?) (fun element => element[digit]?)
    (fun write listed _ inside =>
      ⟨Nat.lt_of_lt_of_eq inside (writeAt_size _ _ _).symm,
        putElement_getElem? (sized write listed) within inside⟩) once inside

/-- An element that is put is found again at its place. -/
theorem elementBytes_putElements {writes : List (Write (List UInt8))}
    (sized : ∀ write ∈ writes, write.element.length = width)
    (once : (writes.map (·.place)).Nodup) {bytes : Bytes} {write : Write (List UInt8)}
    (listed : write ∈ writes) (inside : write.place * width + width ≤ bytes.size) :
    elementBytes (putElements bytes writes) width write.place = write.element := by
  apply List.ext_getElem?
  intro digit
  rcases Nat.lt_or_ge digit width with within | past
  · rw [elementBytes_getElem? _ _ within]
    exact (putElements_getElem? sized once within (by omega)).1 write listed rfl
  · have length := sized write listed
    rw [List.getElem?_eq_none, List.getElem?_eq_none (by omega)]
    unfold elementBytes
    rw [Array.length_toList, Array.size_extract]
    omega

end Effect

def Write.encoded {α : Type} [Storage α] (write : Write α) : Write (List UInt8) :=
  ⟨write.place, Storage.encode write.element⟩

theorem encoded_places {α : Type} [Storage α] (writes : List (Write α)) :
    (writes.map Write.encoded).map (·.place) = writes.map (·.place) := by
  rw [List.map_map]
  rfl

theorem encoded_length {α : Type} [Storage α] {writes : List (Write α)} :
    ∀ write ∈ writes.map Write.encoded, write.element.length = Storage.width α := by
  rw [List.forall_mem_map]
  intro write _
  exact Storage.encode_length write.element

/-- What an overlay holds, place by place. -/
theorem overlay_getElem? (bytes written : Bytes) (index : Nat) :
    (overlay bytes written)[index]? =
      if index < written.size ∧ index < bytes.size then written[index]? else bytes[index]? := by
  unfold overlay
  rw [Array.getElem?_append, Array.getElem?_extract, Array.getElem?_extract, Array.size_extract]
  by_cases inside : index < written.size ∧ index < bytes.size
  · rw [if_pos inside, if_pos (by omega), if_pos (by omega), Nat.zero_add]
  · rw [if_neg inside, if_neg (by omega)]
    by_cases bound : index < bytes.size
    · rw [if_pos (by omega), show written.size + (index - (min bytes.size written.size - 0)) = index
        by omega]
    · rw [if_neg (by omega), Array.getElem?_eq_none (by omega)]

/-- Elements that fill the front of a buffer are put there one after the other. -/
theorem overlay_encodeAll {α : Type} [Storage α] {bytes : Bytes} {elements : Array α}
    {writes : List (Write α)}
    (places : (writes.map (·.place)).Perm (List.range elements.size))
    (found : ∀ write ∈ writes, elements[write.place]? = some write.element) :
    overlay bytes (encodeAll elements) = putElements bytes (writes.map Write.encoded) := by
  have once : ((writes.map Write.encoded).map (·.place)).Nodup := by
    rw [encoded_places]
    exact places.nodup_iff.mpr List.nodup_range
  apply Array.ext_getElem?
  intro index
  rcases Nat.lt_or_ge index bytes.size with inside | outside
  · rw [overlay_getElem?, encodeAll_size]
    have positive : 0 < Storage.width α := Storage.width_pos
    have split := Nat.div_add_mod' index (Storage.width α)
    have within := Nat.mod_lt index positive
    generalize index / Storage.width α = place at split
    generalize index % Storage.width α = digit at split within
    subst split
    obtain ⟨put, others⟩ := putElements_getElem? encoded_length once within inside
    by_cases counted : place < elements.size
    · obtain ⟨write, listed, rfl⟩ :=
        List.mem_map.mp (places.mem_iff.mpr (List.mem_range.mpr counted))
      have bound := row_end_le (Storage.width α) counted
      rw [put write.encoded (List.mem_map_of_mem listed) rfl, if_pos (by omega)]
      exact encodeAll_getElem? (found write listed) within
    · have bound := Nat.mul_le_mul_right (Storage.width α) (Nat.le_of_not_lt counted)
      rw [others, if_neg (by omega)]
      rw [encoded_places, places.mem_iff, List.mem_range]
      exact counted
  · rw [Array.getElem?_eq_none (by rw [overlay_size]; exact outside),
      Array.getElem?_eq_none (by rw [putElements_size]; exact outside)]

/-- An element of the front of a buffer is found again at its place. -/
theorem elementBytes_overlay {α : Type} [Storage α] {bytes : Bytes} {elements : Array α}
    (fits : elements.size * Storage.width α ≤ bytes.size) {place : Nat} {element : α}
    (found : elements[place]? = some element) :
    elementBytes (overlay bytes (encodeAll elements)) (Storage.width α) place =
      Storage.encode element := by
  have inside := (Array.getElem?_eq_some_iff.mp found).1
  have most := row_end_le (Storage.width α) inside
  apply List.ext_getElem?
  intro digit
  rcases Nat.lt_or_ge digit (Storage.width α) with within | past
  · rw [elementBytes_getElem? _ _ within, overlay_getElem?, encodeAll_size, if_pos (by omega)]
    exact encodeAll_getElem? found within
  · rw [List.getElem?_eq_none, List.getElem?_eq_none (by rw [Storage.encode_length]; exact past)]
    unfold elementBytes
    rw [Array.length_toList, Array.size_extract]
    omega

end TensorEngine
