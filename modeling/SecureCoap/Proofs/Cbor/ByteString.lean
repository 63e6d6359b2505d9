import SecureCoap.Cbor.ByteString
import SecureCoap.Proofs.Bytes
import SecureCoap.Proofs.Computation

/-!
# The byte string in front, found

The reader finds a byte string of definite length whatever comes after it, and it finds nothing
else. All widths of the length count, and a length need not be written in the shortest one.
-/

namespace SecureCoap

namespace Cbor

open Bytes

/-! ### Byte strings of definite length -/

/-- The headers of byte strings with contents of this length. It is part of the first byte, or the
first byte tells how many bytes it is written in. -/
inductive ByteStringHeader (length : Nat) : Bytes → Prop where
  | short (h : length < 24) : ByteStringHeader length [UInt8.ofNat (0x40 + length)]
  | long (size : Fin 4) (h : length < 256 ^ 2 ^ size.val) :
    ByteStringHeader length (UInt8.ofNat (0x58 + size.val) :: ofNat (2 ^ size.val) length)

/-- One byte string of definite length, and nothing after it. -/
def IsByteString (bs : Bytes) : Prop :=
  ∃ header content, ByteStringHeader content.length header ∧ bs = header ++ content

/-! ### Lengths -/

theorem stringLengths_short {info : Nat} (h : info < 24) (rest : Bytes) :
    stringLengths info rest = .ok (1, info) := by
  unfold stringLengths
  rw [if_pos h]

theorem stringLengths_long (size : Fin 4) (rest : Bytes) :
    stringLengths (24 + size.val) rest =
      if rest.length < 2 ^ size.val then .error .truncated
      else .ok (1 + 2 ^ size.val, toNat (rest.take (2 ^ size.val))) := by
  have hsize := size.isLt
  unfold stringLengths
  rw [if_neg (by omega), if_pos (by omega), Nat.add_sub_cancel_left, Nat.one_shiftLeft]

theorem stringLengths_eq_ok {info headerLength length : Nat} {rest : Bytes}
    (h : stringLengths info rest = .ok (headerLength, length)) :
    info < 24 ∧ headerLength = 1 ∧ length = info ∨
      ∃ size : Fin 4, info = 24 + size.val ∧ 2 ^ size.val ≤ rest.length ∧
        headerLength = 1 + 2 ^ size.val ∧ length = toNat (rest.take (2 ^ size.val)) := by
  by_cases hshort : info < 24
  · rw [stringLengths_short hshort] at h
    cases h
    exact Or.inl ⟨hshort, rfl, rfl⟩
  · by_cases hlong : info < 28
    · obtain ⟨size, rfl⟩ : ∃ size : Fin 4, info = 24 + size.val :=
        ⟨⟨info - 24, by omega⟩, by show info = 24 + (info - 24); omega⟩
      rw [stringLengths_long] at h
      split at h
      · cases h
      · next hle =>
        cases h
        exact Or.inr ⟨size, rfl, by omega, rfl, rfl⟩
    · unfold stringLengths at h
      rw [if_neg hshort, if_neg hlong] at h
      cases h

/-! ### The first byte string -/

/-- What the lengths are read from is the header of a byte string with contents of that length. -/
theorem header_of_stringLengths {initial : UInt8} {headerLength length : Nat} {rest : Bytes}
    (hmajor : initial.toNat / 32 = 2)
    (h : stringLengths (initial.toNat % 32) rest = .ok (headerLength, length)) :
    ByteStringHeader length ((initial :: rest).take headerLength) := by
  rcases stringLengths_eq_ok h with ⟨hlt, rfl, hlength⟩ | ⟨size, hinfo, hle, rfl, hlength⟩
  · have hinitial : initial = UInt8.ofNat (0x40 + length) := by
      apply UInt8.toNat_inj.mp
      rw [UInt8.toNat_ofNat']
      omega
    rw [hinitial]
    exact .short (by omega)
  · have hinitial : initial = UInt8.ofNat (0x58 + size.val) := by
      apply UInt8.toNat_inj.mp
      rw [UInt8.toNat_ofNat']
      omega
    have hwidth : (rest.take (2 ^ size.val)).length = 2 ^ size.val := List.length_take_of_le hle
    have hdigits : rest.take (2 ^ size.val) = ofNat (2 ^ size.val) length := by
      have hdigits := ofNat_toNat (rest.take (2 ^ size.val))
      rw [hwidth] at hdigits
      rw [hlength, hdigits]
    have hlt : length < 256 ^ 2 ^ size.val := by
      have hlt := toNat_lt (rest.take (2 ^ size.val))
      rw [hwidth] at hlt
      rw [hlength]
      exact hlt
    rw [Nat.add_comm, List.take_succ_cons, hinitial, hdigits]
    exact .long size hlt

theorem stringLengths_of_header {header content : Bytes}
    (h : ByteStringHeader content.length header) (rest : Bytes) :
    ∃ initial digits, header = initial :: digits ∧ initial.toNat / 32 = 2 ∧
      stringLengths (initial.toNat % 32) (digits ++ rest) =
        .ok (header.length, content.length) := by
  cases h with
  | short h =>
    have hinitial : (UInt8.ofNat (0x40 + content.length)).toNat = 0x40 + content.length := by
      rw [UInt8.toNat_ofNat']
      omega
    refine ⟨_, [], rfl, by omega, ?_⟩
    have hinfo : (0x40 + content.length) % 32 = content.length := by omega
    rw [hinitial, hinfo, stringLengths_short h]
    rfl
  | long size h =>
    have hsize := size.isLt
    have hinitial : (UInt8.ofNat (0x58 + size.val)).toNat = 0x58 + size.val := by
      rw [UInt8.toNat_ofNat']
      omega
    refine ⟨_, _, rfl, by omega, ?_⟩
    have hinfo : (0x58 + size.val) % 32 = 24 + size.val := by omega
    have hwidth : (ofNat (2 ^ size.val) content.length).length = 2 ^ size.val := length_ofNat ..
    have htake : (ofNat (2 ^ size.val) content.length ++ rest).take (2 ^ size.val) =
        ofNat (2 ^ size.val) content.length := List.take_left' hwidth
    rw [hinitial, hinfo, stringLengths_long, if_neg (by rw [List.length_append]; omega), htake,
      toNat_ofNat, Nat.mod_eq_of_lt h, List.length_cons, hwidth, Nat.add_comm]

theorem byteStringLength_cons (initial : UInt8) (rest : Bytes) {n : Nat} :
    byteStringLength (initial :: rest) = .ok n ↔
      initial.toNat / 32 = 2 ∧ ∃ headerLength length,
        stringLengths (initial.toNat % 32) rest = .ok (headerLength, length) ∧
        headerLength + length ≤ rest.length + 1 ∧ headerLength + length = n := by
  show (if initial.toNat / 32 ≠ 2 then _ else _) = _ ↔ _
  by_cases hmajor : initial.toNat / 32 = 2
  · rw [if_neg (not_not_intro hmajor), bind_eq_ok]
    constructor
    · intro h
      obtain ⟨⟨headerLength, length⟩, hlengths, h⟩ := h
      simp only at h
      split at h
      · next hle => exact ⟨hmajor, headerLength, length, hlengths, hle, pure_eq_ok.mp h⟩
      · cases h
    · intro h
      obtain ⟨-, headerLength, length, hlengths, hle, htotal⟩ := h
      refine ⟨_, hlengths, ?_⟩
      simp only
      rw [if_pos hle, htotal]
      rfl
  · rw [if_pos hmajor]
    constructor
    · intro h
      cases h
    · intro h
      exact absurd h.1 hmajor

/-- A byte string is found whatever comes after it. -/
theorem byteStringLength_append {bs : Bytes} (h : IsByteString bs) (rest : Bytes) :
    byteStringLength (bs ++ rest) = .ok bs.length := by
  obtain ⟨header, content, hheader, rfl⟩ := h
  obtain ⟨initial, digits, rfl, hmajor, hlengths⟩ :=
    stringLengths_of_header hheader (content ++ rest)
  show byteStringLength (initial :: (digits ++ content ++ rest)) = _
  rw [byteStringLength_cons, List.append_assoc]
  refine ⟨hmajor, _, _, hlengths, ?_, ?_⟩
  · simp only [List.length_cons, List.length_append]
    omega
  · rw [List.length_append]

/-- What is found is a byte string, and nothing is found but in front. -/
theorem isByteString_take {bs : Bytes} {n : Nat} (h : byteStringLength bs = .ok n) :
    n ≤ bs.length ∧ IsByteString (bs.take n) := by
  cases bs with
  | nil => cases h
  | cons initial rest =>
    obtain ⟨hmajor, headerLength, length, hlengths, hle, rfl⟩ :=
      (byteStringLength_cons initial rest).mp h
    have hcontent : (((initial :: rest).drop headerLength).take length).length = length := by
      rw [List.length_take, List.length_drop, List.length_cons]
      omega
    refine ⟨hle, (initial :: rest).take headerLength,
      ((initial :: rest).drop headerLength).take length, ?_, List.take_add⟩
    rw [hcontent]
    exact header_of_stringLengths hmajor hlengths

theorem isByteString_iff {bs : Bytes} :
    IsByteString bs ↔ byteStringLength bs = .ok bs.length := by
  constructor
  · intro h
    have happend := byteStringLength_append h []
    rw [List.append_nil] at happend
    exact happend
  · intro h
    have htake := (isByteString_take h).2
    rw [List.take_length] at htake
    exact htake

instance (bs : Bytes) : Decidable (IsByteString bs) := decidable_of_iff' _ isByteString_iff

end Cbor

end SecureCoap
