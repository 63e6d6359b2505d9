import SecureCoap.Crypto.Sha256

/-!
# Key derivation

A secret and a salt are extracted into a key, which is expanded into as many bytes as are asked
for, different for every context information.
-/

namespace SecureCoap

namespace Hkdf

/-- A key as long as a block of the hash function. -/
def blockKey (key : Bytes) : Bytes :=
  let short := if key.length ≤ Sha256.blockLength then key else Sha256.digest key
  short ++ List.replicate (Sha256.blockLength - short.length) 0

def hmac (key message : Bytes) : Bytes :=
  let k := blockKey key
  Sha256.digest (k.map (· ^^^ 0x5C) ++ Sha256.digest (k.map (· ^^^ 0x36) ++ message))

theorem length_hmac (key message : Bytes) : (hmac key message).length = Sha256.digestLength :=
  Sha256.length_digest _

/-- `n` blocks of output from block `i` on, after the block `last`. -/
def expandFrom (key info : Bytes) : (n i : Nat) → (last : Bytes) → Bytes
  | 0, _, _ => []
  | n + 1, i, last =>
    let next := hmac key (last ++ info ++ [UInt8.ofNat i])
    next ++ expandFrom key info n (i + 1) next

def maxLength : Nat := 255 * Sha256.digestLength

/-- `length` bytes for a salt, a secret and context information, unless that is too many. -/
def derive (salt secret info : Bytes) (length : Nat) : Option Bytes :=
  if length ≤ maxLength then
    let count := (length + Sha256.digestLength - 1) / Sha256.digestLength
    some ((expandFrom (hmac salt secret) info count 1 []).take length)
  else none

theorem length_expandFrom (key info : Bytes) (n i : Nat) (last : Bytes) :
    (expandFrom key info n i last).length = n * Sha256.digestLength := by
  induction n generalizing i last with
  | zero => simp [expandFrom]
  | succ n ih =>
    simp only [expandFrom, List.length_append, length_hmac, ih]
    rw [Nat.succ_mul, Nat.add_comm]

theorem length_of_derive {salt secret info : Bytes} {length : Nat} {bs : Bytes}
    (h : derive salt secret info length = some bs) : bs.length = length := by
  unfold derive at h
  split at h
  · cases h
    simp only [List.length_take, length_expandFrom, Sha256.digestLength]
    omega
  · cases h

end Hkdf

end SecureCoap
