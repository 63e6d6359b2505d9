import SecureCoap.Oscore.Nonce
import SecureCoap.Proofs.Oscore.PartialIv

/-!
# Nonces

Two nonces of one context are equal exactly if they belong to the same identifier and their partial
initialisation vectors end in the same five bytes.
-/

namespace SecureCoap

open Bytes

namespace Oscore

/-- Nonces of different identifiers differ, and those of one identifier agree exactly if the last
five bytes of the partial initialisation vectors write the same number. -/
theorem nonce_eq_iff {piv₁ piv₂ id₁ id₂ commonIv : Bytes} (hiv : commonIv.length = 13)
    (h₁ : id₁.length ≤ 7) (h₂ : id₂.length ≤ 7) :
    nonce piv₁ id₁ commonIv = nonce piv₂ id₂ commonIv
      ↔ id₁ = id₂ ∧ toNat piv₁ % 2 ^ 40 = toNat piv₂ % 2 ^ 40 := by
  have hroom : idRoom commonIv.length = 7 := by rw [hiv]; rfl
  have hpiv₁ : (takeRight pivRoom piv₁).length ≤ pivRoom := length_takeRight_le _ _
  have hpiv₂ : (takeRight pivRoom piv₂).length ≤ pivRoom := length_takeRight_le _ _
  have htail : padLeft pivRoom (takeRight pivRoom piv₁) = padLeft pivRoom (takeRight pivRoom piv₂)
      ↔ toNat piv₁ % 2 ^ 40 = toNat piv₂ % 2 ^ 40 := by
    rw [padLeft_eq_iff hpiv₁ hpiv₂, toNat_takeRight, toNat_takeRight]
    rfl
  unfold nonce
  simp only [hroom, takeRight_of_length_le h₁, takeRight_of_length_le h₂]
  constructor
  · intro h
    have hlen₁ : (UInt8.ofNat id₁.length :: padLeft 7 id₁
        ++ padLeft pivRoom (takeRight pivRoom piv₁)).length ≤ commonIv.length := by
      rw [List.length_append, List.length_cons, length_padLeft h₁, length_padLeft hpiv₁, hiv]
      decide
    have hlen₂ : (UInt8.ofNat id₂.length :: padLeft 7 id₂
        ++ padLeft pivRoom (takeRight pivRoom piv₂)).length ≤ commonIv.length := by
      rw [List.length_append, List.length_cons, length_padLeft h₂, length_padLeft hpiv₂, hiv]
      decide
    have hparts := xor_right_cancel hlen₁ hlen₂ h
    have hsame : (UInt8.ofNat id₁.length :: padLeft 7 id₁).length
        = (UInt8.ofNat id₂.length :: padLeft 7 id₂).length := by
      rw [List.length_cons, List.length_cons, length_padLeft h₁, length_padLeft h₂]
    obtain ⟨hhead, hpad⟩ := List.append_inj hparts hsame
    obtain ⟨hlength, hid⟩ := List.cons.inj hhead
    have hlen : id₁.length = id₂.length := by
      have hnat := congrArg UInt8.toNat hlength
      rw [UInt8.toNat_ofNat', UInt8.toNat_ofNat'] at hnat
      omega
    exact ⟨eq_of_toNat_eq hlen ((padLeft_eq_iff h₁ h₂).mp hid), htail.mp hpad⟩
  · intro h
    obtain ⟨rfl, h⟩ := h
    rw [htail.mpr h]

theorem toNat_mod_of_length_le {piv : Bytes} (h : piv.length ≤ pivRoom) :
    toNat piv % 2 ^ 40 = toNat piv := by
  apply Nat.mod_eq_of_lt
  calc toNat piv < 256 ^ pivRoom := toNat_lt_of_length_le h
    _ = 2 ^ 40 := by decide

/-- For identifiers and vectors that fit into their fields, a nonce tells the identifier with its
leading zeros and the number that the vector writes, and so the sequence number, and nothing
else. -/
theorem nonce_determines {piv₁ piv₂ id₁ id₂ commonIv : Bytes} (hiv : commonIv.length = 13)
    (hid₁ : id₁.length ≤ 7) (hid₂ : id₂.length ≤ 7) (hpiv₁ : piv₁.length ≤ 5)
    (hpiv₂ : piv₂.length ≤ 5) :
    (nonce piv₁ id₁ commonIv = nonce piv₂ id₂ commonIv ↔ id₁ = id₂ ∧ toNat piv₁ = toNat piv₂) ∧
      PartialIv.toNumber piv₁ = toNat piv₁ ∧ PartialIv.toNumber piv₂ = toNat piv₂ := by
  have hnonce := @nonce_eq_iff piv₁ piv₂ id₁ id₂ commonIv hiv hid₁ hid₂
  rw [toNat_mod_of_length_le hpiv₁, toNat_mod_of_length_le hpiv₂] at hnonce
  exact ⟨hnonce, PartialIv.toNumber_eq_toNat (by omega), PartialIv.toNumber_eq_toNat (by omega)⟩

/-- A zero in front of the vector does not change the nonce, and one in front of the identifier
does. -/
theorem nonce_determines_leadingZeros :
    nonce [0x00, 0x05] [0x01] (List.replicate 13 0xA5) =
        nonce [0x05] [0x01] (List.replicate 13 0xA5) ∧
      nonce [0x05] [0x01] (List.replicate 13 0xA5) ≠
        nonce [0x05] [0x00, 0x01] (List.replicate 13 0xA5) := by
  obtain ⟨hsame, -⟩ := @nonce_determines [0x00, 0x05] [0x05] [0x01] [0x01]
    (List.replicate 13 0xA5) rfl (by decide) (by decide) (by decide) (by decide)
  obtain ⟨hother, -⟩ := @nonce_determines [0x05] [0x05] [0x01] [0x00, 0x01]
    (List.replicate 13 0xA5) rfl (by decide) (by decide) (by decide) (by decide)
  refine ⟨hsame.mpr ⟨rfl, by decide⟩, fun heq => ?_⟩
  exact absurd (hother.mp heq).1 (by decide)

end Oscore

end SecureCoap
