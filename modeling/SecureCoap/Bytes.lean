/-!
# Byte strings

Keys, identifiers, messages and their parts are lists of bytes. Numbers are written in base 256
with a fixed number of digits, most significant byte first; short byte strings are aligned to the
right end of a field.
-/

namespace SecureCoap

abbrev Bytes := List UInt8

namespace Bytes

/-! ### Numbers in base 256 -/

/-- The number that a byte string writes in base 256, most significant byte first. -/
def toNat (bs : Bytes) : Nat := bs.foldl (fun n b => 256 * n + b.toNat) 0

/-- The last `width` digits of `n` in base 256, most significant first. -/
def ofNat : (width n : Nat) → Bytes
  | 0, _ => []
  | width + 1, n => ofNat width (n / 256) ++ [UInt8.ofNat n]

@[simp] theorem length_ofNat (width n : Nat) : (ofNat width n).length = width := by
  induction width generalizing n with
  | zero => rfl
  | succ width ih => simp [ofNat, ih]

@[simp] theorem toNat_nil : toNat [] = 0 := rfl

@[simp] theorem toNat_append_singleton (bs : Bytes) (b : UInt8) :
    toNat (bs ++ [b]) = 256 * toNat bs + b.toNat := by
  simp [toNat, List.foldl_append]

/-! ### Slices -/

/-- The bytes from one place up to another, if both are places of the byte string and in this
order. -/
def slice? (start stop : Nat) (bs : Bytes) : Option Bytes :=
  if start ≤ stop ∧ stop ≤ bs.length then some ((bs.take stop).drop start) else none

/-! ### Alignment and masking -/

/-- The bytes moved to the right end of a field of `width` bytes, with zeros in front. -/
def padLeft (width : Nat) (bs : Bytes) : Bytes := List.replicate (width - bs.length) 0 ++ bs

def takeRight (n : Nat) (bs : Bytes) : Bytes := bs.drop (bs.length - n)

/-- The exclusive or of two byte strings, as long as the shorter one. -/
def xor (as bs : Bytes) : Bytes := List.zipWith (· ^^^ ·) as bs

theorem length_padLeft {width : Nat} {bs : Bytes} (h : bs.length ≤ width) :
    (padLeft width bs).length = width := by
  simp [padLeft]
  omega

theorem length_takeRight_le (n : Nat) (bs : Bytes) : (takeRight n bs).length ≤ n := by
  simp [takeRight]
  omega

theorem takeRight_of_length_le {n : Nat} {bs : Bytes} (h : bs.length ≤ n) :
    takeRight n bs = bs := by
  simp [takeRight, Nat.sub_eq_zero_of_le h]

@[simp] theorem length_xor (as bs : Bytes) : (xor as bs).length = min as.length bs.length := by
  simp [xor]

end Bytes

end SecureCoap
