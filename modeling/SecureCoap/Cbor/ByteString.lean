import SecureCoap.Cbor.Error
import SecureCoap.Bytes

/-!
# The byte string in front

How many bytes the byte string takes up that an input starts with, its header included. Only byte
strings of a length known from the header are recognised; what follows is not looked at. The same
is computed in words of 64 bits, in which sums and shifts can go wrong.
-/

namespace SecureCoap

namespace Cbor

/-- The length of a header and the content length it announces, from the low five bits of the
initial byte and the bytes after it. -/
def stringLengths (info : Nat) (rest : Bytes) : Except Error (Nat × Nat) :=
  if info < 24 then .ok (1, info)
  else if info < 28 then
    let width := 1 <<< (info - 24)
    if rest.length < width then .error .truncated
    else .ok (1 + width, Bytes.toNat (rest.take width))
  else .error .unexpectedItem

/-- The number of bytes of the byte string that the input starts with. -/
def byteStringLength : Bytes → Except Error Nat
  | [] => .error .truncated
  | initial :: rest =>
    if initial.toNat / 32 ≠ 2 then .error .unexpectedItem
    else do
      let (headerLength, contentLength) ← stringLengths (initial.toNat % 32) rest
      let total := headerLength + contentLength
      if total ≤ rest.length + 1 then return total else throw .truncated

/-! ### In machine words -/

/-- The number that bytes write, gathered in a word. What is shifted out of the word is lost. -/
def gather (digits : Bytes) : UInt64 := digits.foldl (fun n b => n <<< 8 ||| b.toUInt64) 0

/-- The sum of two words, unless it takes more than a word. -/
def checkedAdd? (m n : UInt64) : Option UInt64 := if m ≤ m + n then some (m + n) else none

/-- `stringLengths` in words, from the low five bits of the initial byte and all of the input. -/
def stringWords (info : UInt8) (bs : Bytes) : Except Error (UInt64 × UInt64) :=
  if info ≤ 23 then .ok (1, info.toUInt64)
  else if info ≤ 27 then
    let width : UInt64 := 1 <<< (info - 24).toUInt64
    match Bytes.slice? 1 (1 + width.toNat) bs with
    | none => .error .truncated
    | some digits => .ok (1 + width, gather digits)
  else .error .unexpectedItem

/-- The sum of both lengths, if it stays within a word and within the input. -/
def totalWord (headerLength contentLength inputLength : UInt64) : Except Error UInt64 :=
  match checkedAdd? headerLength contentLength with
  | none => .error .truncated
  | some total => if total ≤ inputLength then .ok total else .error .truncated

/-- `byteStringLength` in words of 64 bits. -/
def byteStringWord : Bytes → Except Error UInt64
  | [] => .error .truncated
  | initial :: rest =>
    if initial >>> 5 ≠ 2 then .error .unexpectedItem
    else do
      let (headerLength, contentLength) ← stringWords (initial &&& 0b11111) (initial :: rest)
      totalWord headerLength contentLength (UInt64.ofNat (rest.length + 1))

end Cbor

end SecureCoap
