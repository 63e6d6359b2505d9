import SecureCoap.Crypto.Ccm
import SecureCoap.Proofs.Bytes

/-!
# Decryption undoes encryption

The key stream is as long as what it masks, so masking twice gives back the plaintext; the tag is
then that of the same plaintext.
-/

namespace SecureCoap

namespace Ccm

open Aes Bytes

theorem length_bytes (b : Block) : b.bytes.length = 16 := Vector.length_toList

/-! ### Masks -/

theorem length_maskBlocks (keys : Schedule) (nonce : Bytes) {n : Nat} (i : Nat) {bs : Bytes}
    (h : bs.length ≤ 16 * n) : (maskBlocks keys nonce n i bs).length = bs.length := by
  induction n generalizing i bs with
  | zero =>
    have hnil : bs = [] := List.eq_nil_of_length_eq_zero (by omega)
    rw [hnil]
    rfl
  | succ n ih =>
    have hrest : (bs.drop 16).length ≤ 16 * n := by
      rw [List.length_drop]
      omega
    rw [maskBlocks, List.length_append, ih (i + 1) hrest, length_xor, length_bytes,
      List.length_take, List.length_drop]
    omega

theorem maskBlocks_maskBlocks (keys : Schedule) (nonce : Bytes) {n : Nat} (i : Nat) {bs : Bytes}
    (h : bs.length ≤ 16 * n) :
    maskBlocks keys nonce n i (maskBlocks keys nonce n i bs) = bs := by
  induction n generalizing i bs with
  | zero =>
    have hnil : bs = [] := List.eq_nil_of_length_eq_zero (by omega)
    rw [hnil]
    rfl
  | succ n ih =>
    have hrest : (bs.drop 16).length ≤ 16 * n := by
      rw [List.length_drop]
      omega
    have hkey : (bs.take 16).length ≤ (keyBlock keys nonce i).bytes.length := by
      rw [length_bytes, List.length_take]
      omega
    have hfirst :
        (xor (bs.take 16) (keyBlock keys nonce i).bytes).length = (bs.take 16).length := by
      rw [length_xor, Nat.min_eq_left hkey]
    have htail := length_maskBlocks keys nonce (i + 1) hrest
    rw [maskBlocks, maskBlocks]
    by_cases hfull : 16 ≤ bs.length
    · have hlen : (xor (bs.take 16) (keyBlock keys nonce i).bytes).length = 16 := by
        rw [hfirst, List.length_take, Nat.min_eq_left hfull]
      rw [List.take_left' hlen, List.drop_left' hlen, xor_xor hkey, ih (i + 1) hrest,
        List.take_append_drop]
    · -- The last block is a short one, with nothing after it.
      have hnil : bs.drop 16 = [] := List.drop_eq_nil_of_le (by omega)
      have hmasked : maskBlocks keys nonce n (i + 1) (bs.drop 16) = [] := by
        apply List.eq_nil_of_length_eq_zero
        rw [htail, hnil]
        rfl
      have hle : (xor (bs.take 16) (keyBlock keys nonce i).bytes).length ≤ 16 := by
        rw [hfirst, List.length_take]
        omega
      rw [hmasked, List.append_nil, List.take_of_length_le hle, xor_xor hkey,
        List.drop_eq_nil_of_le hle, List.take_of_length_le (by omega)]
      rw [hnil] at hmasked
      rw [hmasked, List.append_nil]

theorem length_mask (keys : Schedule) (nonce bs : Bytes) :
    (mask keys nonce bs).length = bs.length :=
  length_maskBlocks keys nonce 1 (by omega)

theorem mask_mask (keys : Schedule) (nonce bs : Bytes) :
    mask keys nonce (mask keys nonce bs) = bs := by
  have hlen := length_mask keys nonce bs
  rw [mask, hlen]
  exact maskBlocks_maskBlocks keys nonce 1 (by omega)

theorem length_tag (keys : Schedule) (nonce aad plaintext : Bytes) :
    (tag keys nonce aad plaintext).length = tagLength := by
  rw [tag, List.length_take, length_bytes]
  rfl

/-! ### Ciphertexts -/

theorem encrypt_isSome {key nonce aad plaintext : Bytes} (h : plaintext.length ≤ maxLength) :
    (encrypt key nonce aad plaintext).isSome := by
  rw [encrypt, if_pos h]
  rfl

/-- A ciphertext is decrypted under what it was encrypted under. -/
theorem decrypt_of_encrypt {key nonce aad plaintext ciphertext : Bytes}
    (h : encrypt key nonce aad plaintext = some ciphertext) :
    decrypt key nonce aad ciphertext = some plaintext := by
  unfold encrypt at h
  split at h
  · next hle =>
    cases h
    have hmask := length_mask (schedule key) nonce plaintext
    have htag := length_tag (schedule key) nonce aad plaintext
    have hlen : (mask (schedule key) nonce plaintext
          ++ tag (schedule key) nonce aad plaintext).length - tagLength
        = (mask (schedule key) nonce plaintext).length := by
      rw [List.length_append, htag]
      omega
    have hbounds : tagLength ≤ (mask (schedule key) nonce plaintext
          ++ tag (schedule key) nonce aad plaintext).length ∧
        (mask (schedule key) nonce plaintext
          ++ tag (schedule key) nonce aad plaintext).length ≤ maxLength + tagLength := by
      rw [List.length_append, hmask, htag]
      omega
    unfold decrypt
    rw [if_pos hbounds]
    simp only [takeRight, hlen, List.take_left, List.drop_left, mask_mask, if_true]
  · cases h

end Ccm

end SecureCoap
