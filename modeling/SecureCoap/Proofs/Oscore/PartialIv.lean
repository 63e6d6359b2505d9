import Mathlib.Tactic.NormNum
import SecureCoap.Oscore.PartialIv
import SecureCoap.Proofs.Bytes

/-!
# Partial initialisation vectors

A partial initialisation vector gives back the sequence number that it was made of, and is the
shortest one that does. What is not the shortest has a zero in front of other bytes.
-/

namespace SecureCoap

open Bytes

namespace Oscore

namespace PartialIv

/-! ### What is written of a number -/

theorem ofNumber_cases (n : Nat) :
    ofNumber n = [0] ∧ n % 2 ^ 64 = 0 ∨
      ∃ b bs, b ≠ 0 ∧ ofNumber n = b :: bs ∧ toNat (b :: bs) = n % 2 ^ 64 := by
  have hdigits : toNat ((Bytes.ofNat 8 n).dropWhile (· = 0)) = n % 2 ^ 64 := by
    rw [toNat_dropWhile_zero, Bytes.toNat_ofNat]
    norm_num
  cases hcase : (Bytes.ofNat 8 n).dropWhile (· = 0) with
  | nil =>
    rw [hcase] at hdigits
    refine Or.inl ⟨?_, hdigits.symm⟩
    unfold ofNumber
    rw [hcase]
  | cons b bs =>
    have hb : ¬(b = 0) := by
      have hhead := List.head_dropWhile_not (fun b : UInt8 => decide (b = 0))
        (by rw [hcase]; exact List.cons_ne_nil b bs)
      simpa [hcase] using hhead
    rw [hcase] at hdigits
    refine Or.inr ⟨b, bs, hb, ?_, hdigits⟩
    unfold ofNumber
    rw [hcase]

theorem toNat_ofNumber (n : Nat) : toNat (ofNumber n) = n % 2 ^ 64 := by
  rcases ofNumber_cases n with ⟨h, hn⟩ | ⟨b, bs, -, h, hn⟩
  · rw [h, hn]
    rfl
  · rw [h, hn]

theorem length_ofNumber_le {n width : Nat} (hw : 0 < width) (h : n < 256 ^ width) :
    (ofNumber n).length ≤ width := by
  rcases ofNumber_cases n with ⟨hzero, -⟩ | ⟨b, bs, hb, hcons, hn⟩
  · rw [hzero]
    exact hw
  · have hle : n % 2 ^ 64 ≤ n := Nat.mod_le _ _
    rw [hcons]
    exact length_cons_le_of_toNat_lt hb (by omega)

theorem length_ofNumber_le_iff {n width : Nat} (hn : n < 2 ^ 64) (hw : 0 < width) :
    (ofNumber n).length ≤ width ↔ n < 256 ^ width := by
  constructor
  · intro hle
    have hlt := toNat_lt_of_length_le hle
    rwa [toNat_ofNumber, Nat.mod_eq_of_lt hn] at hlt
  · exact length_ofNumber_le hw

theorem head?_ofNumber_eq_zero_iff (n : Nat) :
    (ofNumber n).head? = some 0 ↔ n % 2 ^ 64 = 0 := by
  rcases ofNumber_cases n with ⟨hzero, hn⟩ | ⟨b, bs, hb, hcons, hn⟩
  · rw [hzero]
    exact iff_of_true rfl hn
  · have hpos : 0 < 256 ^ bs.length := Nat.pow_pos (by decide)
    have hle := pow_le_toNat_cons hb bs
    rw [hcons, List.head?_cons, Option.some.injEq]
    exact iff_of_false hb (by omega)

theorem length_ofNumber_pos (n : Nat) : 0 < (ofNumber n).length := by
  rcases ofNumber_cases n with ⟨hzero, -⟩ | ⟨b, bs, -, hcons, -⟩
  · rw [hzero]
    decide
  · rw [hcons]
    exact Nat.succ_pos _

theorem length_ofNumber_le_five {n : Nat} (h : n ≤ maxNumber) : (ofNumber n).length ≤ 5 := by
  have hmax : maxNumber = 2 ^ 40 - 1 := rfl
  exact length_ofNumber_le (by decide) (by omega)

/-- The partial initialisation vector of a number that can be sent fits into the option. -/
theorem length_ofNumber_bounds {n : Nat} (h : n ≤ maxNumber) :
    0 < (ofNumber n).length ∧ (ofNumber n).length ≤ 7 :=
  ⟨length_ofNumber_pos n, (length_ofNumber_le_five h).trans (by decide)⟩

/-! ### The shortest bytes of a number -/

/-- Bytes that write a number in base 256, most significant first, and are as few as can be, but at
least one. -/
structure IsShortest (bs : Bytes) (n : Nat) : Prop where
  toNat : Bytes.toNat bs = n
  ne_nil : bs ≠ []
  length_le : ∀ bs' : Bytes, bs' ≠ [] → Bytes.toNat bs' = n → bs.length ≤ bs'.length

theorem IsShortest.unique {xs ys : Bytes} {n : Nat} (hx : IsShortest xs n) (hy : IsShortest ys n) :
    xs = ys := by
  have hxy := hx.length_le ys hy.ne_nil hy.toNat
  have hyx := hy.length_le xs hx.ne_nil hx.toNat
  exact eq_of_toNat_eq (Nat.le_antisymm hxy hyx) (hx.toNat.trans hy.toNat.symm)

/-- What makes bytes the shortest is that there is no zero in front of others. -/
theorem isShortest_toNat_iff {bs : Bytes} (hbs : 1 ≤ bs.length) :
    IsShortest bs (Bytes.toNat bs) ↔ bs.length = 1 ∨ bs.head? ≠ some 0 := by
  constructor
  · intro h
    match bs with
    | [b] => exact Or.inl rfl
    | b :: c :: cs =>
      refine Or.inr fun hzero => ?_
      -- Without the zero, fewer bytes write the same number.
      obtain rfl : b = 0 := Option.some.inj hzero
      have hsame : Bytes.toNat (c :: cs) = Bytes.toNat (0 :: c :: cs) := by
        rw [Bytes.toNat_cons 0 (c :: cs), UInt8.toNat_zero, Nat.zero_mul, Nat.zero_add]
      have hle := h.length_le (c :: cs) (List.cons_ne_nil c cs) hsame
      simp only [List.length_cons] at hle
      omega
  · intro h
    refine ⟨rfl, List.length_pos_iff.mp hbs, fun bs' hne hn => ?_⟩
    have hpos : 0 < bs'.length := List.length_pos_iff.mpr hne
    rcases h with hone | hhead
    · omega
    · match bs with
      | b :: bs =>
        -- The number is too large for fewer bytes, by its first digit alone.
        have hb : b ≠ 0 := fun hzero => hhead (congrArg some hzero)
        have hlt := toNat_lt bs'
        rw [hn] at hlt
        exact length_cons_le_of_toNat_lt hb hlt

theorem isShortest_ofNumber {n : Nat} (h : n < 2 ^ 64) : IsShortest (ofNumber n) n where
  toNat := by rw [toNat_ofNumber, Nat.mod_eq_of_lt h]
  ne_nil := List.length_pos_iff.mp (length_ofNumber_pos n)
  length_le bs hbs hn := by
    apply length_ofNumber_le (List.length_pos_iff.mpr hbs)
    rw [← hn]
    exact toNat_lt bs

/-! ### What is read -/

theorem toNumber_eq_mod (piv : Bytes) : toNumber piv = toNat piv % 2 ^ 64 := by
  rw [toNumber, toNat_takeRight]
  norm_num

theorem toNumber_eq_toNat {piv : Bytes} (h : piv.length ≤ 8) : toNumber piv = toNat piv := by
  rw [toNumber, takeRight_of_length_le h]

theorem toNumber_ofNumber {n : Nat} (h : n < 2 ^ 64) : toNumber (ofNumber n) = n := by
  rw [toNumber_eq_mod, toNat_ofNumber, Nat.mod_mod, Nat.mod_eq_of_lt h]

theorem toNumber_ofNumber_of_le {n : Nat} (h : n ≤ maxNumber) : toNumber (ofNumber n) = n := by
  have hmax : maxNumber = 2 ^ 40 - 1 := rfl
  exact toNumber_ofNumber (by omega)

/-- The partial initialisation vectors that are written again as they are. -/
theorem ofNumber_toNumber_iff {piv : Bytes} (hpos : 1 ≤ piv.length) (hle : piv.length ≤ 8) :
    ofNumber (toNumber piv) = piv ↔ piv.length = 1 ∨ piv.head? ≠ some 0 := by
  have hlt : toNat piv < 2 ^ 64 := by
    calc toNat piv < 256 ^ 8 := toNat_lt_of_length_le hle
      _ = 2 ^ 64 := by norm_num
  have hshortest := isShortest_ofNumber hlt
  rw [← isShortest_toNat_iff hpos, toNumber_eq_toNat hle]
  constructor
  · intro h
    rwa [h] at hshortest
  · exact hshortest.unique

theorem toNumber_append {last : Bytes} (h : last.length = 8) (front : Bytes) :
    toNumber (front ++ last) = toNat last := by
  have hlast : takeRight 8 (front ++ last) = last := by
    rw [takeRight, List.length_append, h, Nat.add_sub_cancel, List.drop_left]
  rw [toNumber, hlast]

/-- A sequence number is read back from its partial initialisation vector, which is as short as the
number allows. What is read from up to eight bytes is written as these again if they do not start
with a zero, or are a single one. Of longer bytes the last eight count, and each of them does. -/
theorem shortest_codec :
    (∀ n < 2 ^ 64, toNumber (ofNumber n) = n ∧
      ((ofNumber n).head? = some 0 ↔ n = 0) ∧ (n = 0 → ofNumber n = [0]) ∧
      (∀ k, 1 ≤ k → ((ofNumber n).length ≤ k ↔ n < 2 ^ (8 * k))) ∧
      ((ofNumber n).length ≤ 5 ↔ n ≤ maxNumber)) ∧
    (∀ piv : Bytes, 1 ≤ piv.length → piv.length ≤ 8 →
      (ofNumber (toNumber piv) = piv ↔ piv.length = 1 ∨ piv.head? ≠ some 0)) ∧
    ∀ front front' last last' : Bytes, last.length = 8 → last'.length = 8 →
      (toNumber (front ++ last) = toNumber (front' ++ last') ↔ last = last') := by
  refine ⟨fun n hn => ⟨toNumber_ofNumber hn, ?_, ?_, ?_, ?_⟩, fun _ => ofNumber_toNumber_iff, ?_⟩
  · rw [head?_ofNumber_eq_zero_iff, Nat.mod_eq_of_lt hn]
  · rintro rfl
    rfl
  · intro k hk
    have hpow : 256 ^ k = 2 ^ (8 * k) := by rw [Nat.pow_mul]
    rw [length_ofNumber_le_iff hn hk, hpow]
  · have hmax : maxNumber = 2 ^ 40 - 1 := rfl
    rw [length_ofNumber_le_iff hn (by decide)]
    omega
  · intro front front' last last' h h'
    rw [toNumber_append h, toNumber_append h']
    constructor
    · exact eq_of_toNat_eq (h.trans h'.symm)
    · intro hlast
      rw [hlast]

/-- The last number that fits into five bytes, and the first that does not; a zero in front of
another byte, and alone; and nine bytes of which the first does not count. -/
theorem shortest_codec_boundaries :
    (ofNumber (2 ^ 40 - 1)).length ≤ 5 ∧ ¬(ofNumber (2 ^ 40)).length ≤ 5 ∧
      ofNumber (toNumber [0x00, 0x05]) ≠ [0x00, 0x05] ∧ ofNumber (toNumber [0x00]) = [0x00] ∧
      toNumber (0xFF :: List.replicate 8 0x01) = toNumber ([] ++ List.replicate 8 0x01) := by
  obtain ⟨hnumbers, hpivs, hlong⟩ := shortest_codec
  obtain ⟨-, -, -, -, hlast⟩ := hnumbers (2 ^ 40 - 1) (by decide)
  obtain ⟨-, -, -, hlength, -⟩ := hnumbers (2 ^ 40) (by decide)
  refine ⟨hlast.mpr (by decide), mt (hlength 5 (by decide)).mp (by decide), ?_, ?_, ?_⟩
  · exact mt (hpivs [0x00, 0x05] (by decide) (by decide)).mp (by decide)
  · exact (hpivs [0x00] (by decide) (by decide)).mpr (by decide)
  · exact (hlong [0xFF] [] _ _ rfl rfl).mpr rfl

end PartialIv

end Oscore

end SecureCoap
