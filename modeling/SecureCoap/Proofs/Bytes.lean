import Mathlib.Data.List.Induction
import Mathlib.Tactic.Ring
import SecureCoap.Bytes

/-!
# Byte strings as numbers

A byte string of a given length and the number that it writes in base 256 determine each other.
Zeros in front and the bytes before the last few change the number in a known way, and masking
with a fixed byte string loses nothing.
-/

namespace SecureCoap

namespace Bytes

/-! ### Numbers in base 256 -/

theorem toNat_ofNat (width n : Nat) : toNat (ofNat width n) = n % 256 ^ width := by
  induction width generalizing n with
  | zero => simp [ofNat, Nat.mod_one]
  | succ width ih =>
    have h : n % (256 * 256 ^ width) = n % 256 + 256 * (n / 256 % 256 ^ width) := Nat.mod_mul
    rw [← Nat.pow_succ'] at h
    rw [ofNat, toNat_append_singleton, ih, UInt8.toNat_ofNat', h]
    omega

theorem toNat_append (xs ys : Bytes) :
    toNat (xs ++ ys) = toNat xs * 256 ^ ys.length + toNat ys := by
  induction ys using List.reverseRecOn with
  | nil => simp
  | append_singleton ys y ih =>
    rw [← List.append_assoc, toNat_append_singleton, toNat_append_singleton, ih, List.length_append,
      List.length_singleton, pow_succ]
    ring

theorem toNat_lt (bs : Bytes) : toNat bs < 256 ^ bs.length := by
  induction bs using List.reverseRecOn with
  | nil => simp
  | append_singleton bs b ih =>
    have hb : b.toNat < 256 := b.toNat_lt
    rw [toNat_append_singleton, List.length_append, List.length_singleton, pow_succ]
    omega

theorem toNat_lt_of_length_le {bs : Bytes} {width : Nat} (h : bs.length ≤ width) :
    toNat bs < 256 ^ width :=
  (toNat_lt bs).trans_le (Nat.pow_le_pow_right (by decide) h)

theorem ofNat_toNat (bs : Bytes) : ofNat bs.length (toNat bs) = bs := by
  induction bs using List.reverseRecOn with
  | nil => rfl
  | append_singleton bs b ih =>
    have hb : b.toNat < 256 := b.toNat_lt
    have hdiv : (256 * toNat bs + b.toNat) / 256 = toNat bs := by omega
    have hmod : UInt8.ofNat (256 * toNat bs + b.toNat) = b := by
      apply UInt8.toNat_inj.mp
      rw [UInt8.toNat_ofNat']
      omega
    rw [List.length_append, List.length_singleton, toNat_append_singleton, ofNat, hdiv, hmod, ih]

theorem eq_of_toNat_eq {xs ys : Bytes} (hl : xs.length = ys.length) (h : toNat xs = toNat ys) :
    xs = ys := by
  rw [← ofNat_toNat xs, ← ofNat_toNat ys, hl, h]

@[simp] theorem toNat_replicate_zero (n : Nat) : toNat (List.replicate n 0) = 0 := by
  induction n with
  | zero => rfl
  | succ n ih => rw [List.replicate_succ', toNat_append_singleton, ih]; rfl

/-! ### Leading zeros -/

theorem toNat_cons (b : UInt8) (bs : Bytes) :
    toNat (b :: bs) = b.toNat * 256 ^ bs.length + toNat bs := by
  have h := toNat_append [b] bs
  have hb : toNat [b] = b.toNat := by simp [toNat]
  rw [List.singleton_append, hb] at h
  exact h

theorem toNat_dropWhile_zero (bs : Bytes) : toNat (bs.dropWhile (· = 0)) = toNat bs := by
  induction bs with
  | nil => rfl
  | cons b bs ih =>
    by_cases hb : b = 0
    · rw [List.dropWhile_cons_of_pos (by simp [hb]), ih, toNat_cons, hb]
      simp
    · rw [List.dropWhile_cons_of_neg (by simp [hb])]

theorem pow_le_toNat_cons {b : UInt8} (hb : b ≠ 0) (bs : Bytes) :
    256 ^ bs.length ≤ toNat (b :: bs) := by
  have hpos : 0 < b.toNat := by
    rcases Nat.eq_zero_or_pos b.toNat with h | h
    · exact absurd (UInt8.toNat_inj.mp (by rw [h]; rfl)) hb
    · exact h
  rw [toNat_cons]
  have h := Nat.le_mul_of_pos_left (256 ^ bs.length) hpos
  omega

/-- Without a zero in front, the number tells how many bytes write it. -/
theorem length_cons_le_of_toNat_lt {b : UInt8} {bs : Bytes} {width : Nat} (hb : b ≠ 0)
    (h : toNat (b :: bs) < 256 ^ width) : (b :: bs).length ≤ width := by
  have hpow : 256 ^ bs.length < 256 ^ width := (pow_le_toNat_cons hb bs).trans_lt h
  exact (Nat.pow_lt_pow_iff_right (by decide : 1 < 256)).mp hpow

/-! ### Slices -/

theorem slice?_of_le {start stop : Nat} {bs : Bytes} (hstart : start ≤ stop)
    (hstop : stop ≤ bs.length) : slice? start stop bs = some ((bs.take stop).drop start) :=
  if_pos ⟨hstart, hstop⟩

theorem slice?_cons (b : UInt8) (bs : Bytes) (n : Nat) :
    slice? 1 (1 + n) (b :: bs) = if bs.length < n then none else some (bs.take n) := by
  by_cases h : bs.length < n
  · rw [if_pos h]
    apply if_neg
    rw [List.length_cons]
    omega
  · rw [if_neg h, slice?_of_le (by omega) (by rw [List.length_cons]; omega), Nat.add_comm,
      List.take_succ_cons]
    rfl

/-! ### Alignment -/

@[simp] theorem toNat_padLeft (width : Nat) (bs : Bytes) : toNat (padLeft width bs) = toNat bs := by
  rw [padLeft, toNat_append, toNat_replicate_zero, Nat.zero_mul, Nat.zero_add]

/-- Two byte strings look alike in a field of fixed width if they write the same number. -/
theorem padLeft_eq_iff {width : Nat} {xs ys : Bytes} (hx : xs.length ≤ width)
    (hy : ys.length ≤ width) : padLeft width xs = padLeft width ys ↔ toNat xs = toNat ys := by
  constructor
  · intro h
    rw [← toNat_padLeft width xs, h, toNat_padLeft]
  · intro h
    apply eq_of_toNat_eq
    · rw [length_padLeft hx, length_padLeft hy]
    · rw [toNat_padLeft, toNat_padLeft, h]

theorem toNat_takeRight (n : Nat) (bs : Bytes) : toNat (takeRight n bs) = toNat bs % 256 ^ n := by
  by_cases h : bs.length ≤ n
  · rw [takeRight_of_length_le h, Nat.mod_eq_of_lt (toNat_lt_of_length_le h)]
  · have hlen : (takeRight n bs).length = n := by
      rw [takeRight, List.length_drop]
      omega
    have hlt : toNat (takeRight n bs) < 256 ^ n :=
      toNat_lt_of_length_le (length_takeRight_le n bs)
    have hsplit : toNat bs
        = toNat (bs.take (bs.length - n)) * 256 ^ n + toNat (takeRight n bs) := by
      conv_lhs => rw [← List.take_append_drop (bs.length - n) bs]
      rw [toNat_append]
      show _ * 256 ^ (takeRight n bs).length + _ = _
      rw [hlen]
      rfl
    rw [hsplit, Nat.mul_add_mod_self_right, Nat.mod_eq_of_lt hlt]

/-! ### Masking -/

theorem xor_xor {xs mask : Bytes} (h : xs.length ≤ mask.length) :
    xor (xor xs mask) mask = xs := by
  induction xs generalizing mask with
  | nil => rfl
  | cons x xs ih =>
    cases mask with
    | nil => simp at h
    | cons m mask =>
      have hle : xs.length ≤ mask.length := Nat.le_of_succ_le_succ h
      show (x ^^^ m ^^^ m) :: xor (xor xs mask) mask = x :: xs
      rw [ih hle, UInt8.xor_assoc, UInt8.xor_self, UInt8.xor_zero]

theorem xor_right_cancel {xs ys mask : Bytes} (hx : xs.length ≤ mask.length)
    (hy : ys.length ≤ mask.length) (h : xor xs mask = xor ys mask) : xs = ys := by
  rw [← xor_xor hx, h, xor_xor hy]

end Bytes

end SecureCoap
