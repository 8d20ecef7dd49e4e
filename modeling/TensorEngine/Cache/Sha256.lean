import TensorEngine.Arithmetic

/-!
Contract: the digest SHA-256 of a sequence of bytes.

Owns: `Sha256.digest`. The state of eight words, the schedule of sixty-four and the digest of
thirty-two bytes have their widths in their types.

Does not own: what is digested.
-/

namespace TensorEngine.Sha256

abbrev State := Vector UInt32 8

def initial : State :=
  #v[0x6a09e667, 0xbb67ae85, 0x3c6ef372, 0xa54ff53a, 0x510e527f, 0x9b05688c, 0x1f83d9ab,
    0x5be0cd19]

def constants : Vector UInt32 64 :=
  #v[0x428a2f98, 0x71374491, 0xb5c0fbcf, 0xe9b5dba5, 0x3956c25b, 0x59f111f1, 0x923f82a4,
    0xab1c5ed5, 0xd807aa98, 0x12835b01, 0x243185be, 0x550c7dc3, 0x72be5d74, 0x80deb1fe,
    0x9bdc06a7, 0xc19bf174, 0xe49b69c1, 0xefbe4786, 0x0fc19dc6, 0x240ca1cc, 0x2de92c6f,
    0x4a7484aa, 0x5cb0a9dc, 0x76f988da, 0x983e5152, 0xa831c66d, 0xb00327c8, 0xbf597fc7,
    0xc6e00bf3, 0xd5a79147, 0x06ca6351, 0x14292967, 0x27b70a85, 0x2e1b2138, 0x4d2c6dfc,
    0x53380d13, 0x650a7354, 0x766a0abb, 0x81c2c92e, 0x92722c85, 0xa2bfe8a1, 0xa81a664b,
    0xc24b8b70, 0xc76c51a3, 0xd192e819, 0xd6990624, 0xf40e3585, 0x106aa070, 0x19a4c116,
    0x1e376c08, 0x2748774c, 0x34b0bcb5, 0x391c0cb3, 0x4ed8aa4a, 0x5b9cca4f, 0x682e6ff3,
    0x748f82ee, 0x78a5636f, 0x84c87814, 0x8cc70208, 0x90befffa, 0xa4506ceb, 0xbef9a3f7,
    0xc67178f2]

def rotate (word : UInt32) (count : UInt32) : UInt32 :=
  (word >>> count) ||| (word <<< (32 - count))

/-- The word at a position of a message, most significant byte first. -/
def wordAt (message : Array UInt8) (start : Nat) : UInt32 :=
  let byte (offset : Nat) : UInt32 := (message.getD (start + offset) 0).toUInt32
  (byte 0 <<< 24) ||| (byte 1 <<< 16) ||| (byte 2 <<< 8) ||| byte 3

/-- The next word of the schedule, from the words before it. -/
def nextWord (words : Array UInt32) : UInt32 :=
  let back (distance : Nat) : UInt32 := words.getD (words.size - distance) 0
  let low := back 15
  let high := back 2
  let lowMix := rotate low 7 ^^^ rotate low 18 ^^^ (low >>> 3)
  let highMix := rotate high 17 ^^^ rotate high 19 ^^^ (high >>> 10)
  back 16 + lowMix + back 7 + highMix

/-- The words of a block, and those that follow from them. -/
def schedule (message : Array UInt8) (start : Nat) : Array UInt32 :=
  (List.range 48).foldl (fun words _ => words.push (nextWord words))
    (Array.ofFn fun index : Fin 16 => wordAt message (start + 4 * index.val))

def round (state : State) (constant word : UInt32) : State :=
  let a := state[0]
  let b := state[1]
  let c := state[2]
  let e := state[4]
  let choice := (e &&& state[5]) ^^^ (~~~e &&& state[6])
  let majority := (a &&& b) ^^^ (a &&& c) ^^^ (b &&& c)
  let first :=
    state[7] + (rotate e 6 ^^^ rotate e 11 ^^^ rotate e 25) + choice + constant + word
  let second := (rotate a 2 ^^^ rotate a 13 ^^^ rotate a 22) + majority
  #v[first + second, a, b, c, state[3] + first, e, state[5], state[6]]

/-- The state after a block. -/
def compress (message : Array UInt8) (state : State) (start : Nat) : State :=
  let words := schedule message start
  let final := (List.range 64).foldl
    (fun state index => round state (constants.toArray.getD index 0) (words.getD index 0)) state
  Vector.zipWith (· + ·) state final

/-- A message filled up to whole blocks: a set bit, zeros, and the length in bits. -/
def padded (message : Array UInt8) : Array UInt8 :=
  let bits := 8 * message.size
  let zeros := (119 - message.size % 64) % 64
  message ++ #[0x80] ++ Array.replicate zeros 0 ++
    Array.ofFn fun index : Fin 8 => (bits / 256 ^ (7 - index.val)).toUInt8

def digest (message : Array UInt8) : Vector UInt8 32 :=
  let blocks := padded message
  let state := (List.range (blocks.size / 64)).foldl
    (fun state block => compress blocks state (64 * block)) initial
  Vector.ofFn fun index : Fin 32 =>
    (state.get ⟨index.val / 4, by omega⟩ >>> (24 - 8 * (index.val % 4)).toUInt32).toUInt8

end TensorEngine.Sha256
