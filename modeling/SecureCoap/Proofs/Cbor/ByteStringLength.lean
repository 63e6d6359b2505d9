import Mathlib.Data.Nat.Bitwise
import SecureCoap.Proofs.Cbor.ByteString

/-!
# Inputs with and without a byte string in front

An input starts with a byte string of definite length, or with a byte that none starts with, or it
is the beginning of one. Computed in words of 64 bits, the length is the same, and it stays in a
word whatever length is announced.
-/

namespace SecureCoap

namespace Cbor

open Bytes

/-! ### What byte strings begin with -/

/-- Whether this is the first byte of a byte string of definite length. -/
def OpensByteString (initial : UInt8) : Prop := initial.toNat / 32 = 2 ∧ initial.toNat % 32 < 28

instance (initial : UInt8) : Decidable (OpensByteString initial) :=
  inferInstanceAs (Decidable (_ ∧ _))

theorem stringLengths_reserved {info : Nat} (h : 28 ≤ info) (rest : Bytes) :
    stringLengths info rest = .error .unexpectedItem := by
  unfold stringLengths
  rw [if_neg (by omega), if_neg (by omega)]

theorem stringLengths_eq_error {info : Nat} {rest : Bytes} {e : Error}
    (h : stringLengths info rest = .error e) :
    e = .truncated ∨ e = .unexpectedItem ∧ 28 ≤ info := by
  by_cases hshort : info < 24
  · rw [stringLengths_short hshort] at h
    cases h
  · by_cases hlong : info < 28
    · obtain ⟨size, rfl⟩ : ∃ size : Fin 4, info = 24 + size.val :=
        ⟨⟨info - 24, by omega⟩, by show info = 24 + (info - 24); omega⟩
      rw [stringLengths_long] at h
      split at h
      · cases h
        exact Or.inl rfl
      · cases h
    · rw [stringLengths_reserved (by omega)] at h
      cases h
      exact Or.inr ⟨rfl, by omega⟩

theorem byteStringLength_of_major {initial : UInt8} (h : initial.toNat / 32 = 2) (rest : Bytes) :
    byteStringLength (initial :: rest) =
      stringLengths (initial.toNat % 32) rest >>= fun (headerLength, length) =>
        if headerLength + length ≤ rest.length + 1 then .ok (headerLength + length)
        else .error .truncated := by
  show (if initial.toNat / 32 ≠ 2 then _ else _) = _
  rw [if_neg (not_not_intro h)]
  rfl

theorem byteStringLength_of_not_opens {initial : UInt8} (h : ¬ OpensByteString initial)
    (rest : Bytes) : byteStringLength (initial :: rest) = .error .unexpectedItem := by
  by_cases hmajor : initial.toNat / 32 = 2
  · have hinfo : ¬ initial.toNat % 32 < 28 := fun hinfo => h ⟨hmajor, hinfo⟩
    rw [byteStringLength_of_major hmajor, stringLengths_reserved (Nat.le_of_not_lt hinfo)]
    rfl
  · show (if initial.toNat / 32 ≠ 2 then _ else _) = _
    rw [if_pos hmajor]

theorem byteStringLength_of_opens {initial : UInt8} (h : OpensByteString initial) (rest : Bytes) :
    (∃ n, byteStringLength (initial :: rest) = .ok n) ∨
      byteStringLength (initial :: rest) = .error .truncated := by
  obtain ⟨hmajor, hinfo⟩ := h
  rw [byteStringLength_of_major hmajor]
  cases hlengths : stringLengths (initial.toNat % 32) rest with
  | error e =>
    rcases stringLengths_eq_error hlengths with rfl | ⟨-, hreserved⟩
    · exact Or.inr rfl
    · omega
  | ok lengths =>
    by_cases hle : lengths.1 + lengths.2 ≤ rest.length + 1
    · exact Or.inl ⟨_, if_pos hle⟩
    · exact Or.inr (if_neg hle)

theorem byteStringLength_unexpected_iff {bs : Bytes} :
    byteStringLength bs = .error .unexpectedItem ↔
      ∃ initial rest, bs = initial :: rest ∧ ¬ OpensByteString initial := by
  constructor
  · intro h
    cases bs with
    | nil => cases h
    | cons initial rest =>
      refine ⟨initial, rest, rfl, fun hopens => ?_⟩
      rcases byteStringLength_of_opens hopens rest with ⟨n, hok⟩ | htruncated
      · rw [hok] at h
        cases h
      · rw [htruncated] at h
        cases h
  · intro h
    obtain ⟨initial, rest, rfl, hopens⟩ := h
    exact byteStringLength_of_not_opens hopens rest

theorem byteStringLength_cases (bs : Bytes) :
    (∃ n, byteStringLength bs = .ok n) ∨ byteStringLength bs = .error .unexpectedItem ∨
      byteStringLength bs = .error .truncated := by
  cases bs with
  | nil => exact Or.inr (Or.inr rfl)
  | cons initial rest =>
    by_cases hopens : OpensByteString initial
    · exact (byteStringLength_of_opens hopens rest).imp_right Or.inr
    · exact Or.inr (Or.inl (byteStringLength_of_not_opens hopens rest))

/-! ### Beginnings of byte strings -/

/-- With enough zeros after it, whatever a byte string can begin with contains one. -/
theorem byteStringLength_zeros {initial : UInt8} (h : OpensByteString initial) (rest : Bytes) :
    ∃ k n, byteStringLength (initial :: rest ++ List.replicate k 0) = .ok n := by
  obtain ⟨hmajor, hinfo⟩ := h
  by_cases hshort : initial.toNat % 32 < 24
  · refine ⟨initial.toNat % 32, _, (byteStringLength_cons ..).mpr
      ⟨hmajor, _, _, stringLengths_short hshort _, ?_, rfl⟩⟩
    show _ ≤ (rest ++ List.replicate _ 0).length + 1
    rw [List.length_append, List.length_replicate]
    omega
  · obtain ⟨size, hsize⟩ : ∃ size : Fin 4, initial.toNat % 32 = 24 + size.val :=
      ⟨⟨initial.toNat % 32 - 24, by omega⟩, by
        show initial.toNat % 32 = 24 + (initial.toNat % 32 - 24)
        omega⟩
    have hwidth : 2 ^ size.val ≤ 8 :=
      Nat.pow_le_pow_right (n := 2) (j := 3) (by decide) (Nat.le_of_lt_succ size.isLt)
    -- Eight zeros complete the length, whatever it is; so many zeros again complete the content.
    let length := toNat ((rest ++ List.replicate 8 0).take (2 ^ size.val))
    have hlengths : stringLengths (24 + size.val) (rest ++ List.replicate (8 + length) 0) =
        .ok (1 + 2 ^ size.val, length) := by
      have hle : 2 ^ size.val ≤ (rest ++ List.replicate 8 0).length := by
        rw [List.length_append, List.length_replicate]
        omega
      rw [stringLengths_long, ← List.replicate_append_replicate, ← List.append_assoc,
        List.take_append_of_le_length hle, if_neg]
      rw [List.length_append]
      omega
    refine ⟨8 + length, _, (byteStringLength_cons ..).mpr
      ⟨hmajor, 1 + 2 ^ size.val, length, ?_, ?_, rfl⟩⟩
    · rw [hsize]
      exact hlengths
    · show _ ≤ (rest ++ List.replicate _ 0).length + 1
      rw [List.length_append, List.length_replicate]
      omega

theorem byteStringLength_truncated_iff {bs : Bytes} :
    byteStringLength bs = .error .truncated ↔ ∃ rest, rest ≠ [] ∧ IsByteString (bs ++ rest) := by
  constructor
  · intro h
    cases bs with
    | nil => exact ⟨[0x40], List.cons_ne_nil _ _, by decide⟩
    | cons initial rest =>
      have hopens : OpensByteString initial := by
        by_contra hopens
        rw [byteStringLength_of_not_opens hopens] at h
        cases h
      obtain ⟨k, n, hzeros⟩ := byteStringLength_zeros hopens rest
      obtain ⟨hle, hitem⟩ := isByteString_take hzeros
      by_cases hn : n ≤ (initial :: rest).length
      · -- Then the zeros would not be needed.
        rw [List.take_append_of_le_length hn] at hitem
        have hfound := byteStringLength_append hitem ((initial :: rest).drop n)
        rw [List.take_append_drop, h] at hfound
        cases hfound
      · rw [List.take_append, List.take_of_length_le (by omega)] at hitem
        refine ⟨_, ?_, hitem⟩
        rw [List.length_append] at hle
        rw [← List.length_pos_iff, List.length_take]
        omega
  · intro h
    obtain ⟨rest, hrest, hitem⟩ := h
    have hfound := isByteString_iff.mp hitem
    rcases byteStringLength_cases bs with ⟨n, hok⟩ | hunexpected | htruncated
    · obtain ⟨hle, htake⟩ := isByteString_take hok
      have hagain := byteStringLength_append htake (bs.drop n ++ rest)
      rw [← List.append_assoc, List.take_append_drop, hfound, List.length_take_of_le hle,
        List.length_append] at hagain
      have hpos := List.length_pos_iff.mpr hrest
      have hsum := Except.ok.inj hagain
      omega
    · obtain ⟨initial, tail, rfl, hopens⟩ := byteStringLength_unexpected_iff.mp hunexpected
      rw [List.cons_append, byteStringLength_of_not_opens hopens] at hfound
      cases hfound
    · exact htruncated

/-! ### In machine words -/

theorem toNat_gather {digits : Bytes} (h : digits.length ≤ 8) :
    (gather digits).toNat = toNat digits := by
  induction digits using List.reverseRecOn with
  | nil => rfl
  | append_singleton digits b ih =>
    rw [List.length_append, List.length_singleton] at h
    have hlt : toNat digits < 256 ^ 7 := toNat_lt_of_length_le (by omega)
    have hb : b.toNat < 2 ^ 8 := b.toNat_lt
    have hshift : toNat digits <<< 8 % 2 ^ 64 = toNat digits <<< 8 := by
      rw [Nat.shiftLeft_eq]
      omega
    rw [gather, List.foldl_append]
    show (gather digits <<< 8 ||| b.toUInt64).toNat = _
    rw [UInt64.toNat_or, UInt64.toNat_shiftLeft, ih (by omega), UInt8.toNat_toUInt64]
    show toNat digits <<< 8 % 2 ^ 64 ||| b.toNat = _
    rw [hshift, ← Nat.shiftLeft_add_eq_or_of_lt hb, Nat.shiftLeft_eq, toNat_append_singleton]
    omega

theorem checkedAdd?_eq (m n : UInt64) :
    checkedAdd? m n = if m.toNat + n.toNat < 2 ^ 64 then some (m + n) else none := by
  have hm := m.toNat_lt
  have hn := n.toNat_lt
  unfold checkedAdd?
  congr 1
  rw [UInt64.le_iff_toNat_le, UInt64.toNat_add, eq_iff_iff]
  omega

theorem toNat_width : ∀ size : Fin 4,
    (1 <<< (UInt8.ofNat (24 + size.val) - 24).toUInt64 : UInt64).toNat = 2 ^ size.val := by
  decide

theorem stringWords_eq (info initial : UInt8) (rest : Bytes) :
    (stringWords info (initial :: rest)).map (Prod.map UInt64.toNat UInt64.toNat) =
      stringLengths info.toNat rest := by
  unfold stringWords
  by_cases hshort : info ≤ 23
  · have hlt : info.toNat < 24 := Nat.lt_succ_of_le (UInt8.le_iff_toNat_le.mp hshort)
    rw [if_pos hshort, stringLengths_short hlt]
    rfl
  · have hge : 23 < info.toNat := Nat.lt_of_not_le fun h => hshort (UInt8.le_iff_toNat_le.mpr h)
    by_cases hlong : info ≤ 27
    · have hle : info.toNat ≤ 27 := UInt8.le_iff_toNat_le.mp hlong
      obtain ⟨size, hsize⟩ : ∃ size : Fin 4, info.toNat = 24 + size.val :=
        ⟨⟨info.toNat - 24, by omega⟩, by show info.toNat = 24 + (info.toNat - 24); omega⟩
      have hinfo : info = UInt8.ofNat (24 + size.val) := by rw [← hsize, UInt8.ofNat_toNat]
      have hwidth : 2 ^ size.val ≤ 8 :=
        Nat.pow_le_pow_right (n := 2) (j := 3) (by decide) (Nat.le_of_lt_succ size.isLt)
      rw [if_neg hshort, if_pos hlong, hsize, stringLengths_long, hinfo]
      simp only [toNat_width, slice?_cons]
      by_cases hrest : rest.length < 2 ^ size.val
      · rw [if_pos hrest, if_pos hrest]
        rfl
      · have hdigits : (rest.take (2 ^ size.val)).length ≤ 8 := by
          rw [List.length_take]
          omega
        rw [if_neg hrest, if_neg hrest]
        show Except.ok (UInt64.toNat _, UInt64.toNat _) = _
        rw [toNat_gather hdigits, UInt64.toNat_add, toNat_width]
        congr 2
        exact Nat.mod_eq_of_lt (Nat.lt_of_le_of_lt (Nat.add_le_add_left hwidth 1) (by decide))
    · have hlt : 27 < info.toNat := Nat.lt_of_not_le fun h => hlong (UInt8.le_iff_toNat_le.mpr h)
      rw [if_neg hshort, if_neg hlong]
      unfold stringLengths
      rw [if_neg (by omega), if_neg (by omega)]
      rfl

theorem shiftRight_ne_iff (initial : UInt8) : initial >>> 5 ≠ 2 ↔ initial.toNat / 32 ≠ 2 := by
  rw [Ne, Ne, ← UInt8.toNat_inj, UInt8.toNat_shiftRight]
  show ¬ initial.toNat >>> 5 = 2 ↔ _
  rw [Nat.shiftRight_eq_div_pow]

theorem toNat_and_info (initial : UInt8) : (initial &&& 0b11111).toNat = initial.toNat % 32 := by
  rw [UInt8.toNat_and]
  exact Nat.and_two_pow_sub_one_eq_mod initial.toNat 5

theorem totalWord_eq (headerLength contentLength inputLength : UInt64) :
    (totalWord headerLength contentLength inputLength).map UInt64.toNat =
      if headerLength.toNat + contentLength.toNat ≤ inputLength.toNat then
        .ok (headerLength.toNat + contentLength.toNat)
      else .error .truncated := by
  have hinput := inputLength.toNat_lt
  unfold totalWord
  rw [checkedAdd?_eq]
  by_cases hsum : headerLength.toNat + contentLength.toNat < 2 ^ 64
  · have htotal : (headerLength + contentLength).toNat =
        headerLength.toNat + contentLength.toNat := by
      rw [UInt64.toNat_add, Nat.mod_eq_of_lt hsum]
    rw [if_pos hsum]
    simp only [UInt64.le_iff_toNat_le, htotal]
    split
    · show Except.ok _ = _
      rw [htotal]
    · rfl
  · rw [if_neg hsum, if_neg (by omega)]
    rfl

/-- Nothing is lost in words, as long as the input has a length that is one. -/
theorem byteStringWord_eq {bs : Bytes} (h : bs.length < 2 ^ 64) :
    (byteStringWord bs).map UInt64.toNat = byteStringLength bs := by
  cases bs with
  | nil => rfl
  | cons initial rest =>
    have hlength : (UInt64.ofNat (rest.length + 1)).toNat = rest.length + 1 :=
      UInt64.toNat_ofNat_of_lt h
    unfold byteStringWord byteStringLength
    simp only [shiftRight_ne_iff, ← toNat_and_info, ← stringWords_eq _ initial]
    split
    · rfl
    · cases stringWords (initial &&& 0b11111) (initial :: rest) with
      | error e => rfl
      | ok lengths =>
        obtain ⟨headerLength, contentLength⟩ := lengths
        show (totalWord _ _ _).map _ = _
        rw [totalWord_eq, hlength]
        rfl

/-! ### All inputs -/

/-- The length of the byte string in front is found exactly if there is one, whatever comes after
it. All other inputs are refused as something else by their first byte, or else as the beginning of
a byte string. Words of 64 bits are enough. -/
theorem recognises_byte_strings (bs : Bytes) :
    (∀ n, byteStringLength bs = .ok n ↔
      ∃ item rest, bs = item ++ rest ∧ item.length = n ∧ IsByteString item) ∧
    (∀ n, byteStringLength bs = .ok n → ∀ rest, byteStringLength (bs.take n ++ rest) = .ok n) ∧
    (byteStringLength bs = .error .unexpectedItem ↔
      ∃ initial rest, bs = initial :: rest ∧ ¬ OpensByteString initial) ∧
    (byteStringLength bs = .error .truncated ↔ ∃ rest, rest ≠ [] ∧ IsByteString (bs ++ rest)) ∧
    ((∃ n, byteStringLength bs = .ok n) ∨ byteStringLength bs = .error .unexpectedItem ∨
      byteStringLength bs = .error .truncated) ∧
    (bs.length < 2 ^ 64 → (byteStringWord bs).map UInt64.toNat = byteStringLength bs) := by
  refine ⟨fun n => ⟨?_, ?_⟩, ?_, byteStringLength_unexpected_iff, byteStringLength_truncated_iff,
    byteStringLength_cases bs, byteStringWord_eq⟩
  · intro h
    obtain ⟨hle, hitem⟩ := isByteString_take h
    exact ⟨bs.take n, bs.drop n, (List.take_append_drop n bs).symm, List.length_take_of_le hle,
      hitem⟩
  · intro h
    obtain ⟨item, rest, rfl, rfl, hitem⟩ := h
    exact byteStringLength_append hitem rest
  · intro n h rest
    obtain ⟨hle, hitem⟩ := isByteString_take h
    rw [byteStringLength_append hitem, List.length_take_of_le hle]

/-- Two bytes behind a length of eight bytes, and a byte after them; and a single byte of the
largest content that can be announced. -/
theorem recognises_byte_strings_longHeaders :
    (∃ item rest, [0x5B, 0, 0, 0, 0, 0, 0, 0, 2, 0xAA, 0xBB, 0xCC] = item ++ rest ∧
      item.length = 11 ∧ IsByteString item) ∧
    (byteStringWord [0x5B, 0, 0, 0, 0, 0, 0, 0, 2, 0xAA, 0xBB, 0xCC]).map UInt64.toNat = .ok 11 ∧
    (∃ rest, rest ≠ [] ∧ IsByteString
      ([0x5B, 0xFF, 0xFF, 0xFF, 0xFF, 0xFF, 0xFF, 0xFF, 0xFF, 0xAA] ++ rest)) ∧
    (byteStringWord [0x5B, 0xFF, 0xFF, 0xFF, 0xFF, 0xFF, 0xFF, 0xFF, 0xFF, 0xAA]).map UInt64.toNat =
      .error .truncated := by
  obtain ⟨hfound, -, -, -, -, hwords⟩ :=
    recognises_byte_strings [0x5B, 0, 0, 0, 0, 0, 0, 0, 2, 0xAA, 0xBB, 0xCC]
  obtain ⟨-, -, -, htruncated, -, hoverflow⟩ :=
    recognises_byte_strings [0x5B, 0xFF, 0xFF, 0xFF, 0xFF, 0xFF, 0xFF, 0xFF, 0xFF, 0xAA]
  exact ⟨(hfound 11).mp rfl, hwords (by decide), htruncated.mp rfl, hoverflow (by decide)⟩

end Cbor

end SecureCoap
