import SecureCoap.Crypto.Ccm
import SecureCoap.Crypto.Hkdf

/-!
# Cryptographic primitives

What security contexts need of cryptography, as functions that they are given: encryption and
decryption of messages, and derivation of keys.
-/

namespace SecureCoap

/-- Authenticated encryption and key derivation. What is derived is as long as was asked for. -/
structure Primitives where
  encrypt : (key nonce aad plaintext : Bytes) → Option Bytes
  decrypt : (key nonce aad ciphertext : Bytes) → Option Bytes
  derive : (salt secret info : Bytes) → (length : Nat) → Option Bytes
  length_of_derive : ∀ {salt secret info : Bytes} {length : Nat} {bs : Bytes},
    derive salt secret info length = some bs → bs.length = length

/-- AES-CCM with short tags, and HKDF with SHA-256. -/
def Primitives.standard : Primitives where
  encrypt := Ccm.encrypt
  decrypt := Ccm.decrypt
  derive := Hkdf.derive
  length_of_derive := Hkdf.length_of_derive

end SecureCoap
