import SecureCoap.Cbor.Reader
import SecureCoap.Cbor.Value

/-!
# Decoding CBOR values

Any well-formed item is a value; tags are skipped. Arrays, maps and tags may be nested 127 levels
deep. A sequence is decoded as the array of its items.
-/

namespace SecureCoap

namespace Cbor

/-- How many arrays, maps and tags may lie inside each other. -/
def maxLevels : Nat := 127

namespace Reader

/-- The next item as a value, given how to read what is inside of an array, a map or a tag, if
these may still be entered. Integers below the range of 64 bits are an error unless `wide`. -/
def valueOver (wide : Bool) (inner? : Option (Reader Value)) : Reader Value := do
  match ← head?, inner? with
  | some (.unsigned n), _ => return .int n
  | some (.negative n), _ =>
    if ¬wide ∧ 0x8000000000000000 ≤ n then throw (.wrongType (.wideInteger (-1 - n)) .anyValue)
    return .int (-1 - n)
  | some (.bytes bs), _ => return .bytes bs
  | some (.text s), _ => return .text s
  | some (.bool b), _ => return .bool b
  | some .null, _ => return .null
  | some (.float bits), _ => return .float bits
  | some (.array count), some inner => return .array (← elements .endOfArray count inner)
  | some (.map count), some inner =>
    let entry : Reader (Value × Value) := do
      let k ← inner
      return (k, ← inner)
    return Value.ofEntries (← elements .endOfMap count entry)
  | none, some inner => inner
  | some (.array _), none | some (.map _), none | none, none => fail .tooDeep

def value (wide : Bool) : (levels : Nat) → Reader Value
  | 0 => valueOver wide none
  | levels + 1 => valueOver wide (some (value wide levels))

end Reader

def decodeValue (bs : Bytes) : Except Error Value :=
  ((Reader.value true maxLevels).runAll (.fixed bs)).mapError .decode

/-- Decodes the items of a sequence as the elements of an array of `count`. -/
def decodeSequence {α : Type} (read : Reader α) (count : Nat) (bs : Bytes) : Except Error α :=
  if count ≤ 23 then
    (read.runAll (.sliding (UInt8.ofNat (0x80 + count) :: bs))).mapError .decode
  else .error .tooManyItems

end Cbor

end SecureCoap
