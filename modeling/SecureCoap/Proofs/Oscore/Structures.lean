import SecureCoap.Oscore.Structures
import SecureCoap.Proofs.Cbor.Header

/-!
# What is derived and authenticated tells what for

The information of a derivation determines everything that it was put together from. The additional
authenticated data of a message determines the request that the message is or answers: both the
sender and the partial initialisation vector.
-/

namespace SecureCoap

namespace Oscore

open Cbor

variable {aead : AeadAlgorithm}

/-! ### Information for derivations -/

section

variable {id₁ id₂ : Bytes} {idContext₁ idContext₂ : Option Bytes} {type₁ type₂ : String}
  {length₁ length₂ : Nat}

/-- What of the information does not depend on the endpoint. -/
def sharedInfo (idContext : Option Bytes) (aead : AeadAlgorithm) (type : String) (length : Nat) :
    Bytes :=
  idContext.elim encodeNull encodeBytes
    ++ (encodeInt aead.coseId ++ (encodeText type ++ encodeInt length))

theorem info_eq (id : Bytes) (idContext : Option Bytes) (aead : AeadAlgorithm) (type : String)
    (length : Nat) :
    info id idContext aead type length =
      header 4 5 ++ (encodeBytes id ++ sharedInfo idContext aead type length) := by
  simp [info, sharedInfo, encodeArray]

theorem id_of_info (h₁ : id₁.length < 2 ^ 64) (h₂ : id₂.length < 2 ^ 64)
    (h : info id₁ idContext₁ aead type₁ length₁ = info id₂ idContext₂ aead type₂ length₂) :
    id₁ = id₂ ∧
      sharedInfo idContext₁ aead type₁ length₁ = sharedInfo idContext₂ aead type₂ length₂ := by
  rw [info_eq, info_eq] at h
  exact encodeBytes_append_inj_of_length h₁ h₂ (List.append_cancel_left h)

theorem idContext_of_sharedInfo (h₁ : ∀ c ∈ idContext₁, c.length < 2 ^ 64)
    (h₂ : ∀ c ∈ idContext₂, c.length < 2 ^ 64)
    (h : sharedInfo idContext₁ aead type₁ length₁ = sharedInfo idContext₂ aead type₂ length₂) :
    idContext₁ = idContext₂ := (encodeOptional_append_inj h₁ h₂ h).1

theorem type_of_sharedInfo {idContext : Option Bytes}
    (h : sharedInfo idContext aead type₁ length₁ = sharedInfo idContext aead type₂ length₂) :
    type₁ = type₂ ∧ encodeInt length₁ = encodeInt length₂ := by
  have hrest := List.append_cancel_left (List.append_cancel_left h)
  have hlength₁ := length_encodeInt_natCast_le length₁
  have hlength₂ := length_encodeInt_natCast_le length₂
  exact encodeText_append_inj (by omega) (by omega) hrest

/-- Information for different endpoints, contexts, kinds of material or lengths is different. -/
theorem info_injective (hid₁ : id₁.length < 2 ^ 64) (hid₂ : id₂.length < 2 ^ 64)
    (hcontext₁ : ∀ c ∈ idContext₁, c.length < 2 ^ 64)
    (hcontext₂ : ∀ c ∈ idContext₂, c.length < 2 ^ 64)
    (hlength₁ : length₁ < 2 ^ 64) (hlength₂ : length₂ < 2 ^ 64)
    (h : info id₁ idContext₁ aead type₁ length₁ = info id₂ idContext₂ aead type₂ length₂) :
    id₁ = id₂ ∧ idContext₁ = idContext₂ ∧ type₁ = type₂ ∧ length₁ = length₂ := by
  obtain ⟨hid, hshared⟩ := id_of_info hid₁ hid₂ h
  obtain rfl := idContext_of_sharedInfo hcontext₁ hcontext₂ hshared
  obtain ⟨htype, hlength⟩ := type_of_sharedInfo hshared
  exact ⟨hid, rfl, htype, encodeInt_natCast_inj hlength₁ hlength₂ hlength⟩

end

/-! ### Additional authenticated data -/

section

variable {kid₁ kid₂ piv₁ piv₂ : Bytes}

/-- The array is wrapped as a byte string, which can be of any length, since nothing follows it. -/
theorem request_of_aad (h : aad aead kid₁ piv₁ = aad aead kid₂ piv₂) :
    encodeBytes kid₁ ++ (encodeBytes piv₁ ++ encodeBytes []) =
      encodeBytes kid₂ ++ (encodeBytes piv₂ ++ encodeBytes []) := by
  have harray : encodeBytes (aadArray aead kid₁ piv₁) = encodeBytes (aadArray aead kid₂ piv₂) := by
    unfold aad encodeArray at h
    simpa using h
  have hitems := encodeBytes_injective harray
  unfold aadArray encodeArray at hitems
  simpa using hitems

theorem aad_injective (h₁ : piv₁.length < 2 ^ 62) (h₂ : piv₂.length < 2 ^ 62)
    (h : aad aead kid₁ piv₁ = aad aead kid₂ piv₂) : kid₁ = kid₂ ∧ piv₁ = piv₂ := by
  have hlen₁ := length_encodeBytes_le piv₁
  have hlen₂ := length_encodeBytes_le piv₂
  have hnil : (encodeBytes []).length = 1 := rfl
  obtain ⟨hkid, hpiv⟩ := encodeBytes_append_inj (by rw [List.length_append]; omega)
    (by rw [List.length_append]; omega) (request_of_aad h)
  exact ⟨hkid, encodeBytes_injective (List.append_cancel_right hpiv)⟩

/-- It is enough that the headers of the senders tell their lengths. -/
theorem aad_injective_of_kid (h₁ : kid₁.length < 2 ^ 64) (h₂ : kid₂.length < 2 ^ 64)
    (h : aad aead kid₁ piv₁ = aad aead kid₂ piv₂) : kid₁ = kid₂ ∧ piv₁ = piv₂ := by
  obtain ⟨hkid, hpiv⟩ := encodeBytes_append_inj_of_length h₁ h₂ (request_of_aad h)
  exact ⟨hkid, encodeBytes_injective (List.append_cancel_right hpiv)⟩

/-- It is enough that one of the two requests is short. -/
theorem aad_injective_of_length (hlength : kid₁.length + piv₁.length < 2 ^ 61)
    (h : aad aead kid₁ piv₁ = aad aead kid₂ piv₂) : kid₁ = kid₂ ∧ piv₁ = piv₂ := by
  have hsame := congrArg List.length (request_of_aad h)
  have hkid₁ := length_encodeBytes_le kid₁
  have hpiv₁ := length_encodeBytes_le piv₁
  have hpiv₂ : piv₂.length ≤ (encodeBytes piv₂).length := by
    rw [encodeBytes, List.length_append]
    omega
  simp only [List.length_append] at hsame
  exact aad_injective (by omega) (by omega) h

end

end Oscore

end SecureCoap
