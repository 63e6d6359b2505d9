import SecureCoap.Bytes

/-!
# The hash function

SHA-256: a message is padded to whole blocks of 64 bytes, each of which is mixed into a state of
eight words.
-/

namespace SecureCoap

namespace Sha256

def blockLength : Nat := 64

def digestLength : Nat := 32

structure State where
  a : UInt32
  b : UInt32
  c : UInt32
  d : UInt32
  e : UInt32
  f : UInt32
  g : UInt32
  h : UInt32

def State.initial : State :=
  ⟨0x6a09e667, 0xbb67ae85, 0x3c6ef372, 0xa54ff53a,
    0x510e527f, 0x9b05688c, 0x1f83d9ab, 0x5be0cd19⟩

def State.add (s t : State) : State :=
  ⟨s.a + t.a, s.b + t.b, s.c + t.c, s.d + t.d, s.e + t.e, s.f + t.f, s.g + t.g, s.h + t.h⟩

def constants : List UInt32 := [
  0x428a2f98, 0x71374491, 0xb5c0fbcf, 0xe9b5dba5, 0x3956c25b, 0x59f111f1, 0x923f82a4, 0xab1c5ed5,
  0xd807aa98, 0x12835b01, 0x243185be, 0x550c7dc3, 0x72be5d74, 0x80deb1fe, 0x9bdc06a7, 0xc19bf174,
  0xe49b69c1, 0xefbe4786, 0x0fc19dc6, 0x240ca1cc, 0x2de92c6f, 0x4a7484aa, 0x5cb0a9dc, 0x76f988da,
  0x983e5152, 0xa831c66d, 0xb00327c8, 0xbf597fc7, 0xc6e00bf3, 0xd5a79147, 0x06ca6351, 0x14292967,
  0x27b70a85, 0x2e1b2138, 0x4d2c6dfc, 0x53380d13, 0x650a7354, 0x766a0abb, 0x81c2c92e, 0x92722c85,
  0xa2bfe8a1, 0xa81a664b, 0xc24b8b70, 0xc76c51a3, 0xd192e819, 0xd6990624, 0xf40e3585, 0x106aa070,
  0x19a4c116, 0x1e376c08, 0x2748774c, 0x34b0bcb5, 0x391c0cb3, 0x4ed8aa4a, 0x5b9cca4f, 0x682e6ff3,
  0x748f82ee, 0x78a5636f, 0x84c87814, 0x8cc70208, 0x90befffa, 0xa4506ceb, 0xbef9a3f7, 0xc67178f2]

def rotate (x n : UInt32) : UInt32 := (x >>> n) ||| (x <<< (32 - n))

/-! ### Mixing in a block -/

/-- One round, with the sum of its constant and its word of the block. -/
def round (s : State) (x : UInt32) : State :=
  let choice := (s.e &&& s.f) ^^^ (~~~s.e &&& s.g)
  let majority := (s.a &&& s.b) ^^^ (s.a &&& s.c) ^^^ (s.b &&& s.c)
  let t := s.h + (rotate s.e 6 ^^^ rotate s.e 11 ^^^ rotate s.e 25) + choice + x
  let u := (rotate s.a 2 ^^^ rotate s.a 13 ^^^ rotate s.a 22) + majority
  ⟨t + u, s.a, s.b, s.c, s.d + t, s.e, s.f, s.g⟩

/-- Extends the words of a block by `n` more. -/
def extend : (n : Nat) → Array UInt32 → Array UInt32
  | 0, ws => ws
  | n + 1, ws =>
    let back (k : Nat) : UInt32 := ws.getD (ws.size - k) 0
    let x := back 15
    let y := back 2
    extend n (ws.push (back 16 + (rotate x 7 ^^^ rotate x 18 ^^^ (x >>> 3)) + back 7
      + (rotate y 17 ^^^ rotate y 19 ^^^ (y >>> 10))))

def words : (n : Nat) → Bytes → List UInt32
  | 0, _ => []
  | n + 1, bs => UInt32.ofNat (Bytes.toNat (bs.take 4)) :: words n (bs.drop 4)

/-- Mixes a block into a state. -/
def compress (s : State) (block : Bytes) : State :=
  let ws := (extend 48 (words 16 block).toArray).toList
  s.add ((List.zipWith (· + ·) constants ws).foldl round s)

def absorb : (n : Nat) → State → Bytes → State
  | 0, s, _ => s
  | n + 1, s, bs => absorb n (compress s (bs.take blockLength)) (bs.drop blockLength)

/-! ### Digests -/

/-- A message with what fills it up to whole blocks: a bit, zeros, and its length in bits. -/
def pad (message : Bytes) : Bytes :=
  message ++ 0x80 :: List.replicate ((119 - message.length % 64) % 64) 0
    ++ Bytes.ofNat 8 (8 * message.length)

def State.bytes (s : State) : Bytes :=
  [s.a, s.b, s.c, s.d, s.e, s.f, s.g, s.h].flatMap fun x => Bytes.ofNat 4 x.toNat

def digest (message : Bytes) : Bytes :=
  let padded := pad message
  (absorb (padded.length / blockLength) .initial padded).bytes

theorem length_digest (message : Bytes) : (digest message).length = digestLength := by
  simp [digest, State.bytes, digestLength]

end Sha256

end SecureCoap
