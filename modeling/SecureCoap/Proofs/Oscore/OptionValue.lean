import Mathlib.Data.List.TakeDrop
import Mathlib.Data.Nat.Bitwise
import SecureCoap.Oscore.OptionValue
import SecureCoap.Proofs.Bytes

/-!
# What the option can tell

A value is read back as what it was written from. The values that are written again as they are have
no unused bits in the flag byte, and nothing after the vector but an identifier that is announced.
-/

namespace SecureCoap

namespace Oscore

namespace OptionValue

/-- A partial initialisation vector that is read has at most seven bytes. -/
theorem length_piv_of_decode {value piv : Bytes} (h : (decode value).piv = some piv) :
    piv.length ≤ 7 := by
  cases value with
  | nil => cases h
  | cons flags rest =>
    unfold decode at h
    simp only at h
    split at h
    · cases h
    · simp only at h
      split at h
      · cases h
      · cases h
        rw [List.length_take]
        omega

theorem length_piv_of_ofPacket {packet : Coap.Packet} {value : OptionValue} {piv : Bytes}
    (h : ofPacket packet = .ok value) (hpiv : value.piv = some piv) : piv.length ≤ 7 := by
  unfold ofPacket at h
  split at h
  · cases h
  · cases h
    exact length_piv_of_decode hpiv

theorem toNat_flags (v : OptionValue) (h : (v.piv.getD []).length ≤ 7) :
    v.flags.toNat = (v.piv.getD []).length + if v.kid.isSome then kidFlag else 0 := by
  have hflag : kidFlag = 8 := rfl
  unfold flags
  rw [UInt8.toNat_ofNat']
  split
  · omega
  · omega

/-- What a value is encoded from is what it tells, if the partial initialisation vector is not
empty and not too long. -/
theorem decode_encode {v : OptionValue}
    (h : ∀ piv, v.piv = some piv → 0 < piv.length ∧ piv.length ≤ 7) : decode (encode v) = v := by
  obtain ⟨kid, piv⟩ := v
  have hflag : kidFlag = 8 := rfl
  have hlen : (piv.getD []).length ≤ 7 := by
    cases piv with
    | none => exact Nat.zero_le 7
    | some piv => exact (h piv rfl).2
  by_cases hnone : kid = none ∧ piv = none
  · obtain ⟨rfl, rfl⟩ := hnone
    rfl
  · have hflags := toNat_flags ⟨kid, piv⟩ hlen
    simp only at hflags
    have hlow : (flags ⟨kid, piv⟩).toNat % 8 = (piv.getD []).length := by
      rw [hflags]
      split
      · omega
      · omega
    have hhigh : (flags ⟨kid, piv⟩).toNat / kidFlag % 2 = if kid.isSome then 1 else 0 := by
      rw [hflags, hflag]
      cases kid with
      | none =>
        simp only [Option.isSome_none, Bool.false_eq_true, if_false]
        omega
      | some kid =>
        simp only [Option.isSome_some, if_true]
        omega
    unfold encode
    rw [if_neg hnone]
    show decode (flags ⟨kid, piv⟩ :: (piv.getD [] ++ kid.getD [])) = _
    unfold decode
    simp only [hlow, hhigh, List.length_append]
    rw [if_neg (by omega), List.drop_left, List.take_left]
    cases kid with
    | none =>
      cases piv with
      | none => exact absurd ⟨rfl, rfl⟩ hnone
      | some piv =>
        have hpos : piv.length ≠ 0 := by
          have := (h piv rfl).1
          omega
        simp [hpos]
    | some kid =>
      cases piv with
      | none => simp
      | some piv =>
        have hpos : piv.length ≠ 0 := by
          have := (h piv rfl).1
          omega
        simp [hpos]

/-! ### Canonical values -/

/-- The values that are written for what they tell. -/
def IsCanonical : Bytes → Prop
  | [] => True
  | flags :: rest =>
    1 ≤ flags.toNat ∧ flags.toNat ≤ 15 ∧ flags.toNat % 8 < (flags :: rest).length ∧
      (flags.toNat.testBit 3 ∨ (flags :: rest).length = flags.toNat % 8 + 1)

instance : DecidablePred IsCanonical
  | [] => isTrue trivial
  | _ :: _ => inferInstanceAs (Decidable (_ ∧ _))

theorem decode_short {flags : UInt8} {rest : Bytes} (h : rest.length < flags.toNat % 8) :
    decode (flags :: rest) = ⟨none, none⟩ := if_pos h

theorem decode_cons {flags : UInt8} {rest : Bytes} (h : flags.toNat % 8 ≤ rest.length) :
    decode (flags :: rest) =
      { kid := if flags.toNat.testBit 3 then some (rest.drop (flags.toNat % 8)) else none
        piv := if flags.toNat % 8 = 0 then none else some (rest.take (flags.toNat % 8)) } := by
  have hbit : flags.toNat.testBit 3 = decide (flags.toNat / kidFlag % 2 = 1) :=
    Nat.testBit_eq_decide_div_mod_eq
  simp only [hbit, decide_eq_true_eq]
  exact if_neg (Nat.not_lt.mpr h)

/-- What is written for what a value tells: of the flag byte the low four bits, and what comes
after the partial initialisation vector only if it is an identifier. -/
theorem encode_decode_cons {flags : UInt8} {rest : Bytes} (h : flags.toNat % 8 ≤ rest.length)
    (hflags : flags.toNat % 16 ≠ 0) :
    encode (decode (flags :: rest)) = UInt8.ofNat (flags.toNat % 16) ::
      (rest.take (flags.toNat % 8) ++
        if flags.toNat.testBit 3 then rest.drop (flags.toNat % 8) else []) := by
  have hbit : flags.toNat.testBit 3 = decide (flags.toNat / 8 % 2 = 1) :=
    Nat.testBit_eq_decide_div_mod_eq
  have hpiv : (if flags.toNat % 8 = 0 then none else some (rest.take (flags.toNat % 8))).getD [] =
      rest.take (flags.toNat % 8) := by
    split
    · next hzero => rw [hzero]; rfl
    · rfl
  have hlength : (rest.take (flags.toNat % 8)).length = flags.toNat % 8 := List.length_take_of_le h
  rw [decode_cons h]
  unfold encode OptionValue.flags
  simp only [hpiv, hlength]
  cases htest : flags.toNat.testBit 3 with
  | true =>
    have hhigh : flags.toNat / 8 % 2 = 1 := of_decide_eq_true (hbit.symm.trans htest)
    have hwritten : flags.toNat % 8 % 8 + kidFlag = flags.toNat % 16 := by
      show flags.toNat % 8 % 8 + 8 = _
      omega
    simp only [if_true, reduceCtorEq, false_and, if_false, Option.isSome_some, Option.getD_some,
      hwritten]
    rfl
  | false =>
    have hhigh : ¬ flags.toNat / 8 % 2 = 1 := of_decide_eq_false (hbit.symm.trans htest)
    have hwritten : flags.toNat % 8 % 8 = flags.toNat % 16 := by omega
    have hsome : flags.toNat % 8 ≠ 0 := by omega
    simp [hwritten, hsome]

theorem encode_decode_iff (value : Bytes) : encode (decode value) = value ↔ IsCanonical value := by
  cases value with
  | nil => exact iff_of_true rfl trivial
  | cons flags rest =>
    show _ ↔ 1 ≤ flags.toNat ∧ flags.toNat ≤ 15 ∧ flags.toNat % 8 < rest.length + 1 ∧
      (flags.toNat.testBit 3 ∨ rest.length + 1 = flags.toNat % 8 + 1)
    by_cases hshort : rest.length < flags.toNat % 8
    · rw [decode_short hshort]
      refine iff_of_false ?_ (by omega)
      intro h
      cases h
    · have hle : flags.toNat % 8 ≤ rest.length := Nat.le_of_not_lt hshort
      by_cases hflags : flags.toNat % 16 = 0
      · -- A flag byte that tells of nothing: the empty value would be written.
        have hzero : flags.toNat % 8 = 0 := by omega
        have hbit : flags.toNat.testBit 3 = false := by
          rw [Nat.testBit_eq_decide_div_mod_eq]
          exact decide_eq_false (by omega)
        rw [decode_cons hle, hbit, hzero]
        refine iff_of_false ?_ (by omega)
        intro h
        cases h
      · rw [encode_decode_cons hle hflags, List.cons.injEq]
        have hfirst : UInt8.ofNat (flags.toNat % 16) = flags ↔ flags.toNat ≤ 15 := by
          rw [← UInt8.toNat_inj, UInt8.toNat_ofNat']
          omega
        have hrest : (rest.take (flags.toNat % 8) ++
              if flags.toNat.testBit 3 then rest.drop (flags.toNat % 8) else []) = rest ↔
            flags.toNat.testBit 3 ∨ rest.length = flags.toNat % 8 := by
          cases flags.toNat.testBit 3 with
          | true => simp
          | false =>
            simp only [Bool.false_eq_true, if_false, List.append_nil, List.take_eq_self_iff,
              false_or]
            omega
        rw [hfirst, hrest, Nat.add_right_cancel_iff]
        constructor
        · intro h
          obtain ⟨hle15, hend⟩ := h
          exact ⟨by omega, hle15, by omega, hend⟩
        · intro h
          obtain ⟨-, hle15, -, hend⟩ := h
          exact ⟨hle15, hend⟩

theorem decode?_eq (value : Bytes) : decode? value = some (decode value) := by
  cases value with
  | nil => rfl
  | cons flags rest =>
    have hlow : (flags &&& 0b0111).toNat = flags.toNat % 8 := by
      rw [UInt8.toNat_and]
      exact Nat.and_two_pow_sub_one_eq_mod flags.toNat 3
    have hbit : flags &&& 0b1000 = 0 ↔ flags.toNat.testBit 3 = false := by
      rw [← UInt8.toNat_inj, UInt8.toNat_and]
      show flags.toNat &&& 2 ^ 3 = 0 ↔ _
      rw [Nat.and_two_pow]
      cases flags.toNat.testBit 3
      · simp
      · simp
    have hlength : (flags :: rest).length = rest.length + 1 := rfl
    unfold decode?
    simp only [hlow, hbit]
    by_cases hshort : rest.length < flags.toNat % 8
    · rw [if_pos (by omega), decode_short hshort]
    · have hle : flags.toNat % 8 ≤ rest.length := Nat.le_of_not_lt hshort
      have hpiv : Bytes.slice? 1 (1 + flags.toNat % 8) (flags :: rest) =
          some (rest.take (flags.toNat % 8)) := by
        rw [Bytes.slice?_cons, if_neg hshort]
      have hkid : Bytes.slice? (1 + flags.toNat % 8) (flags :: rest).length (flags :: rest) =
          some (rest.drop (flags.toNat % 8)) := by
        rw [Bytes.slice?_of_le (by omega) (Nat.le_refl _), List.take_length, Nat.add_comm]
        rfl
      rw [if_neg (by omega), decode_cons hle, hpiv, hkid]
      by_cases hzero : flags.toNat % 8 = 0
      · simp only [if_pos hzero]
        cases flags.toNat.testBit 3
        · rfl
        · rfl
      · simp only [if_neg hzero]
        cases flags.toNat.testBit 3
        · rfl
        · rfl

/-- What a value is encoded from is what it tells, and the values that are encodings of what they
tell are the canonical ones. No value is read outside of its bytes. -/
theorem codec_faithful (v : OptionValue) (value : Bytes) :
    ((∀ piv, v.piv = some piv → 1 ≤ piv.length ∧ piv.length ≤ 7) → decode (encode v) = v) ∧
      (encode (decode value) = value ↔ IsCanonical value) ∧
      decode? value = some (decode value) :=
  ⟨decode_encode, encode_decode_iff value, decode?_eq value⟩

/-- An empty identifier after a long vector; and a vector with a byte after it that is no
identifier. -/
theorem codec_faithful_edgeValues :
    decode (encode ⟨some [], some [0, 1, 2, 3, 4, 5, 6]⟩) =
        ⟨some [], some [0, 1, 2, 3, 4, 5, 6]⟩ ∧
      encode (decode [0x01, 0x14, 0xAA]) ≠ [0x01, 0x14, 0xAA] ∧
      decode? [0x01, 0x14, 0xAA] = some ⟨none, some [0x14]⟩ := by
  obtain ⟨hread, hwritten, hslices⟩ :=
    codec_faithful ⟨some [], some [0, 1, 2, 3, 4, 5, 6]⟩ [0x01, 0x14, 0xAA]
  refine ⟨hread ?_, mt hwritten.mp (by decide), hslices⟩
  intro piv hpiv
  cases hpiv
  decide

end OptionValue

end Oscore

end SecureCoap
