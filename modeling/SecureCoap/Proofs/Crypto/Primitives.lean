import SecureCoap.Crypto.Primitives
import SecureCoap.Proofs.Crypto.Ccm

/-!
# What is expected of cryptography
-/

namespace SecureCoap

namespace Primitives

def RoundTrips (crypto : Primitives) : Prop :=
  ∀ ⦃key nonce aad plaintext ciphertext : Bytes⦄,
    crypto.encrypt key nonce aad plaintext = some ciphertext →
      crypto.decrypt key nonce aad ciphertext = some plaintext

/-- Plaintexts of up to `n` bytes are encrypted, whatever they are encrypted under. -/
def EncryptsUpTo (crypto : Primitives) (n : Nat) : Prop :=
  ∀ key nonce aad plaintext : Bytes, plaintext.length ≤ n →
    ∃ ciphertext, crypto.encrypt key nonce aad plaintext = some ciphertext

theorem EncryptsUpTo.mono {crypto : Primitives} {m n : Nat} (h : crypto.EncryptsUpTo n)
    (hle : m ≤ n) : crypto.EncryptsUpTo m :=
  fun key nonce aad plaintext hlen => h key nonce aad plaintext (hlen.trans hle)

/-- Up to `n` bytes are derived, whatever they are derived from. -/
def DerivesUpTo (crypto : Primitives) (n : Nat) : Prop :=
  ∀ (salt secret info : Bytes) (length : Nat), length ≤ n →
    ∃ bs, crypto.derive salt secret info length = some bs

theorem standard_roundTrips : standard.RoundTrips :=
  fun _ _ _ _ _ h => Ccm.decrypt_of_encrypt h

theorem standard_encryptsUpTo : standard.EncryptsUpTo Ccm.maxLength :=
  fun _ _ _ _ h => Option.isSome_iff_exists.mp (Ccm.encrypt_isSome h)

theorem standard_derivesUpTo : standard.DerivesUpTo Hkdf.maxLength :=
  fun _ _ _ _ h => ⟨_, if_pos h⟩

end Primitives

end SecureCoap
