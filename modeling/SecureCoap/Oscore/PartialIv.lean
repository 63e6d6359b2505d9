import SecureCoap.Bytes

/-!
# Partial initialisation vectors

A sequence number as it is sent: big-endian, without leading zeros, but at least a byte.
-/

namespace SecureCoap

namespace Oscore

namespace PartialIv

/-- The largest sequence number that can be sent, which takes five bytes. -/
def maxNumber : Nat := 1 <<< 40 - 1

/-- The partial initialisation vector of a sequence number below `2 ^ 64`. -/
def ofNumber (n : Nat) : Bytes :=
  match (Bytes.ofNat 8 n).dropWhile (· = 0) with
  | [] => [0]
  | bs => bs

/-- The sequence number of a partial initialisation vector; only the last eight bytes count. -/
def toNumber (piv : Bytes) : Nat := Bytes.toNat (Bytes.takeRight 8 piv)

end PartialIv

end Oscore

end SecureCoap
