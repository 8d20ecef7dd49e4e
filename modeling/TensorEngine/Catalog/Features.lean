/-!
Contract: optional features of the hardware.

Owns: `Features`, the order in which they are named, and `satisfies`.

Does not own: which kernels need which features.
-/

namespace TensorEngine

structure Features where
  avx : Bool := false
  avx2 : Bool := false
  fma : Bool := false
  f16c : Bool := false
  neon : Bool := false
deriving DecidableEq, Repr, Inhabited

namespace Features

/-- No optional feature. -/
def portable : Features := {}

def named (features : Features) : List (String × Bool) :=
  [("avx", features.avx), ("avx2", features.avx2), ("fma", features.fma),
    ("f16c", features.f16c), ("neon", features.neon)]

def names : List String := portable.named.map (·.1)

def ofNames (present : List String) : Features where
  avx := present.contains "avx"
  avx2 := present.contains "avx2"
  fma := present.contains "fma"
  f16c := present.contains "f16c"
  neon := present.contains "neon"

def satisfies (features required : Features) : Bool :=
  (!required.avx || features.avx) && (!required.avx2 || features.avx2) &&
    (!required.fma || features.fma) && (!required.f16c || features.f16c) &&
    (!required.neon || features.neon)

def text (features : Features) : String :=
  let present := (features.named.filter (·.2)).map (·.1)
  if present.isEmpty then "portable" else "+".intercalate present

/-- Every host satisfies the empty requirement. -/
theorem satisfies_portable (features : Features) : features.satisfies portable = true := by
  simp [satisfies, portable]

end Features

end TensorEngine
