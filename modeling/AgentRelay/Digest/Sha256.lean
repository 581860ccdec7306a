import AgentRelay.Bytes

/-!
# SHA-256

The message is padded to blocks of sixteen words, and each block is mixed into eight chaining words in
sixty-four rounds.
-/

namespace AgentRelay.Digest.Sha256

/-- The round constants. -/
def roundConstants : List UInt32 :=
  [0x428a2f98, 0x71374491, 0xb5c0fbcf, 0xe9b5dba5, 0x3956c25b, 0x59f111f1, 0x923f82a4, 0xab1c5ed5,
   0xd807aa98, 0x12835b01, 0x243185be, 0x550c7dc3, 0x72be5d74, 0x80deb1fe, 0x9bdc06a7, 0xc19bf174,
   0xe49b69c1, 0xefbe4786, 0x0fc19dc6, 0x240ca1cc, 0x2de92c6f, 0x4a7484aa, 0x5cb0a9dc, 0x76f988da,
   0x983e5152, 0xa831c66d, 0xb00327c8, 0xbf597fc7, 0xc6e00bf3, 0xd5a79147, 0x06ca6351, 0x14292967,
   0x27b70a85, 0x2e1b2138, 0x4d2c6dfc, 0x53380d13, 0x650a7354, 0x766a0abb, 0x81c2c92e, 0x92722c85,
   0xa2bfe8a1, 0xa81a664b, 0xc24b8b70, 0xc76c51a3, 0xd192e819, 0xd6990624, 0xf40e3585, 0x106aa070,
   0x19a4c116, 0x1e376c08, 0x2748774c, 0x34b0bcb5, 0x391c0cb3, 0x4ed8aa4a, 0x5b9cca4f, 0x682e6ff3,
   0x748f82ee, 0x78a5636f, 0x84c87814, 0x8cc70208, 0x90befffa, 0xa4506ceb, 0xbef9a3f7, 0xc67178f2]

/-- The eight chaining words. -/
structure Chain where
  a : UInt32
  b : UInt32
  c : UInt32
  d : UInt32
  e : UInt32
  f : UInt32
  g : UInt32
  h : UInt32

/-- The chaining words before the first block. -/
def initial : Chain :=
  ⟨0x6a09e667, 0xbb67ae85, 0x3c6ef372, 0xa54ff53a, 0x510e527f, 0x9b05688c, 0x1f83d9ab, 0x5be0cd19⟩

/-- Rotation to the right. -/
def rotr (x : UInt32) (n : UInt32) : UInt32 := (x >>> n) ||| (x <<< (32 - n))

/-- The schedule word that follows the words `w`. -/
def nextWord (w : Array UInt32) : UInt32 :=
  let x := w.getD (w.size - 15) 0
  let y := w.getD (w.size - 2) 0
  w.getD (w.size - 16) 0 + (rotr x 7 ^^^ rotr x 18 ^^^ (x >>> 3)) + w.getD (w.size - 7) 0 +
    (rotr y 17 ^^^ rotr y 19 ^^^ (y >>> 10))

/-- The sixty-four words of a block of sixteen. -/
def schedule (block : Array UInt32) : Array UInt32 :=
  (List.range 48).foldl (fun w _ => w.push (nextWord w)) block

/-- One round with the constant `k` and the schedule word `w`. -/
def mix (s : Chain) (k w : UInt32) : Chain :=
  let t := s.h + (rotr s.e 6 ^^^ rotr s.e 11 ^^^ rotr s.e 25) +
    ((s.e &&& s.f) ^^^ (~~~s.e &&& s.g)) + k + w
  let u := (rotr s.a 2 ^^^ rotr s.a 13 ^^^ rotr s.a 22) +
    ((s.a &&& s.b) ^^^ (s.a &&& s.c) ^^^ (s.b &&& s.c))
  ⟨t + u, s.a, s.b, s.c, s.d + t, s.e, s.f, s.g⟩

/-- Mixes one block into the chaining words. -/
def compress (s : Chain) (block : Array UInt32) : Chain :=
  let r := (roundConstants.zip (schedule block).toList).foldl (fun s kw => mix s kw.1 kw.2) s
  ⟨s.a + r.a, s.b + r.b, s.c + r.c, s.d + r.d, s.e + r.e, s.f + r.f, s.g + r.g, s.h + r.h⟩

/-- The `n` low bytes of a number, the most significant first. -/
def bigEndian (n v : Nat) : Bytes :=
  (List.range n).map fun i => (v / Nat.pow 256 (n - 1 - i)).toUInt8

/-- The message with its padding: a one bit, zeros, and its length in bits, to whole blocks. -/
def padded (message : Bytes) : Array UInt8 :=
  let n := message.length
  (message ++ 0x80 :: List.replicate ((119 - n % 64) % 64) 0 ++ bigEndian 8 (n * 8)).toArray

/-- The word at a position of the padded message. -/
def wordAt (m : Array UInt8) (i : Nat) : UInt32 :=
  ((m.getD i 0).toUInt32 <<< 24) ||| ((m.getD (i + 1) 0).toUInt32 <<< 16) |||
    ((m.getD (i + 2) 0).toUInt32 <<< 8) ||| (m.getD (i + 3) 0).toUInt32

/-- The chaining words after the whole message. -/
def run (message : Bytes) : Chain :=
  let m := padded message
  (List.range (m.size / 64)).foldl (fun s i =>
    compress s ((List.range 16).map fun j => wordAt m (64 * i + 4 * j)).toArray) initial

/-- The digest: thirty-two bytes. -/
def digest (message : Bytes) : Bytes :=
  let s := run message
  [s.a, s.b, s.c, s.d, s.e, s.f, s.g, s.h].flatMap fun w => bigEndian 4 w.toNat

end AgentRelay.Digest.Sha256
