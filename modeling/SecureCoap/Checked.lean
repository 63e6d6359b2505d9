import SecureCoap.Bytes

/-!
# Steps that can go out of range

Arithmetic on words of 64 bits, and access to places of byte strings. A step whose result is not a
word, or that leaves the bytes it is about, gives nothing.
-/

namespace SecureCoap

/-! ### Words -/

namespace Word

def add? (m n : Nat) : Option Nat := if m + n < UInt64.size then some (m + n) else none

def sub? (m n : Nat) : Option Nat := if n ≤ m then some (m - n) else none

/-- A word moved up by less than its width. What is moved out of the word is lost. -/
def shiftLeft? (m n : Nat) : Option Nat := if n < 64 then some ((m <<< n) % UInt64.size) else none

end Word

/-! ### Byte strings -/

namespace Bytes

def modify? (place : Nat) (change : UInt8 → UInt8) (bs : Bytes) : Option Bytes :=
  if place < bs.length then some (bs.modify place change) else none

/-- The bytes with those from one place up to another replaced by as many others. -/
def fill? (start stop : Nat) (source bs : Bytes) : Option Bytes :=
  if start ≤ stop ∧ stop ≤ bs.length ∧ source.length = stop - start then
    some (bs.take start ++ source ++ bs.drop stop)
  else none

/-- The bytes without those from one place up to another. -/
def remove? (start stop : Nat) (bs : Bytes) : Option Bytes :=
  if start ≤ stop ∧ stop ≤ bs.length then some (bs.take start ++ bs.drop stop) else none

/-- The last bytes, as many as there may be. -/
def takeRight? (n : Nat) (bs : Bytes) : Option Bytes :=
  if n < bs.length then do slice? (← Word.sub? bs.length n) bs.length bs else some bs

/-- The bytes as a key, or whatever else has to have this length. -/
def exactly? (length : Nat) (bs : Bytes) : Option Bytes :=
  if bs.length = length then some bs else none

end Bytes

end SecureCoap
