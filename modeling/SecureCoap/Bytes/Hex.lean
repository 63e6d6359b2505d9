import SecureCoap.Bytes
import SecureCoap.Text.Quoted

/-!
# Hexadecimal text

Two digits a byte, the high half first. Writing uses lower case; reading takes both cases, and
tells the first character that is no digit by its place.
-/

namespace SecureCoap

/-- Why a text is no hexadecimal byte string. -/
inductive HexError where
  | oddLength
  | invalidDigit (byte : UInt8) (position : Nat)
deriving DecidableEq, Repr

/-- The wording of the error. A byte is shown as the character with its number. -/
def HexError.message : HexError → String
  | oddLength => "Odd number of digits"
  | invalidDigit byte position =>
    s!"Invalid character {Quoted.char (Char.ofNat byte.toNat)} at position {position}"

namespace Hex

def digit (n : Nat) : Char := if n < 10 then Char.ofNat (48 + n) else Char.ofNat (87 + n)

def digitsOf (b : UInt8) : List Char := [digit (b.toNat / 16), digit (b.toNat % 16)]

def encode (bs : Bytes) : String := String.ofList (bs.flatMap digitsOf)

/-- The value of a digit, in either case, given by its ASCII code. -/
def digitValue? (b : UInt8) : Option Nat :=
  let n := b.toNat
  if 48 ≤ n ∧ n ≤ 57 then some (n - 48)
  else if 65 ≤ n ∧ n ≤ 70 then some (n - 55)
  else if 97 ≤ n ∧ n ≤ 102 then some (n - 87)
  else none

def readDigit (b : UInt8) (position : Nat) : Except HexError Nat :=
  match digitValue? b with
  | some n => .ok n
  | none => .error (.invalidDigit b position)

def readPairs (position : Nat) : Bytes → Except HexError Bytes
  | high :: low :: rest => do
    let h ← readDigit high position
    let l ← readDigit low (position + 1)
    let bytes ← readPairs (position + 2) rest
    return UInt8.ofNat (16 * h + l) :: bytes
  | [_] => .error .oddLength
  | [] => .ok []

def decode (text : String) : Except HexError Bytes :=
  let codes := text.toList.flatMap String.utf8EncodeChar
  if codes.length % 2 = 1 then .error .oddLength else readPairs 0 codes

end Hex

end SecureCoap
