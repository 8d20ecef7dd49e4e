/-!
Contract: broken internal contracts, which end a computation without an error of its own.

Owns:
- `Breach`, why a computation could not go on;
- `Checked`, computations that may end so;
- slices and elements of arrays with their bounds checked.

Does not own: errors that are reported to a caller.
-/

namespace TensorEngine

/-- A step that has no result: an index or a slice outside its array, a range whose bounds are in
the wrong order, a division by zero, or an integer that does not fit its width. -/
inductive Breach where
  | outOfRange
  | emptyRange
  | divisionByZero
  | overflow
deriving DecidableEq, Repr

/-- A computation that may break an internal contract. -/
abbrev Checked := Except Breach

def fetch (data : Array α) (index : Nat) : Checked α :=
  match data[index]? with
  | some element => .ok element
  | none => .error .outOfRange

/-- The elements from `start` up to `stop`. -/
def slice (data : Array α) (start stop : Nat) : Checked (Array α) :=
  if start ≤ stop ∧ stop ≤ data.size then .ok (data.extract start stop) else .error .outOfRange

def front (data : Array α) (count : Nat) : Checked (Array α) :=
  slice data 0 count

/-- Collects the elements at these positions in order, stopping at the first breach. -/
def collectAt (positions : List Nat) (element : Nat → Checked α) : Checked (Array α) :=
  positions.foldlM (fun seen position => seen.push <$> element position) #[]

def collect (count : Nat) (element : Nat → Checked α) : Checked (Array α) :=
  collectAt (List.range count) element

/-- Appends the parts `part 0` up to `part (count - 1)`. -/
def gather (count : Nat) (part : Nat → Checked (Array α)) : Checked (Array α) :=
  (List.range count).foldlM (fun seen index => (seen ++ ·) <$> part index) #[]

end TensorEngine
