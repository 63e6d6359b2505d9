import SecureCoap.Binary.Shortest
import SecureCoap.Text.Quoted

/-!
# What can go wrong with CBOR

A decoding error is either about the form of the input, and then says how many bytes were
consumed, or about an item that is well formed but not the one that was expected.
-/

namespace SecureCoap

namespace Cbor

/-- What is wrong with the form of the input. -/
inductive Fault where
  | endOfValue
  | endOfArray
  | endOfMap
  | lengthOutOfRange
  | invalidText
  | unassigned
  | unexpectedCode
  | trailingData
  | arrayTooShort
  | arrayTooLong
  | tooDeep
deriving DecidableEq, Repr

def Fault.message : Fault → String
  | endOfValue => "EOF while parsing a value"
  | endOfArray => "EOF while parsing an array"
  | endOfMap => "EOF while parsing a map"
  | lengthOutOfRange => "length out of range"
  | invalidText => "invalid UTF-8"
  | unassigned => "unassigned type"
  | unexpectedCode => "unexpected code"
  | trailingData => "trailing data"
  | arrayTooShort => "array too short"
  | arrayTooLong => "array too long"
  | tooDeep => "recursion limit exceeded"

/-- A well-formed item that was not the expected one, as far as it is shown. -/
inductive Found where
  | integer (n : Int)
  /-- An integer below the range of 64 bits. -/
  | wideInteger (n : Int)
  | boolean (b : Bool)
  | float (bits : UInt64)
  | text (s : String)
  | bytes
  | null
  | array
  | map
deriving DecidableEq, Repr

def Found.describe : Found → String
  | integer n => s!"integer `{n}`"
  | wideInteger n => s!"integer `{n}` as i128"
  | boolean b => s!"boolean `{b}`"
  | float bits => s!"floating point `{Binary.render bits}`"
  | text s => s!"string {Quoted.text s}"
  | bytes => "byte array"
  | null => "null"
  | array => "sequence"
  | map => "map"

inductive Expected where
  | int32
  | uint8
  | uint64
  | text
  | bytes
  | null
  | anyValue
  | pair
  /-- Something that only its user has a name for. -/
  | named (name : String)
deriving DecidableEq, Repr

def Expected.describe : Expected → String
  | int32 => "i32"
  | uint8 => "u8"
  | uint64 => "u64"
  | text => "a string"
  | bytes => "byte array"
  | null => "unit"
  | anyValue => "any value"
  | pair => "a tuple of size 2"
  | named name => name

inductive DecodeError where
  /-- The form of the input is wrong, noticed after `offset` bytes. -/
  | malformed (fault : Fault) (offset : Nat)
  | wrongType (found : Found) (expected : Expected)
  /-- An item of the right kind whose value does not fit. -/
  | wrongValue (found : Found) (expected : Expected)
  /-- An array that is announced too short. -/
  | wrongLength (length : Nat) (expected : Expected)
  | unknownName (name first second : String)
  | duplicateField (name : String)
  /-- An item that is in none of the forms that a type has. -/
  | noForm (type : String)
deriving DecidableEq, Repr

/-- The wording of a decoding error. An offset of zero is not mentioned. -/
def DecodeError.message : DecodeError → String
  | malformed fault offset =>
    if offset = 0 then fault.message else s!"{fault.message} at offset {offset}"
  | wrongType found expected => s!"invalid type: {found.describe}, expected {expected.describe}"
  | wrongValue found expected => s!"invalid value: {found.describe}, expected {expected.describe}"
  | wrongLength length expected => s!"invalid length {length}, expected {expected.describe}"
  | unknownName name first second =>
    s!"unknown variant `{name}`, expected `{first}` or `{second}`"
  | duplicateField name => s!"duplicate field `{name}`"
  | noForm type => s!"data did not match any variant of untagged enum {type}"

inductive Error where
  | decode (error : DecodeError)
  /-- The value holds an integer outside of `-2 ^ 64` to `2 ^ 64 - 1`. -/
  | numberOutOfRange
  /-- A sequence of more items than an initial byte can count. -/
  | tooManyItems
  /-- The input starts with something else than a byte string of known length. -/
  | unexpectedItem
  | truncated
deriving DecidableEq, Repr

def numberOutOfRangeText : String := "The number can't be stored in CBOR"

def Error.message : Error → String
  | decode error => s!"CBOR error: {error.message}"
  | numberOutOfRange => s!"CBOR error: {numberOutOfRangeText}"
  | tooManyItems => "CBOR error: can't decode CBOR sequence of more than 23 items"
  | unexpectedItem => "CBOR error: unexpected item type"
  | truncated => "CBOR error: input truncated"

def Error.sources : Error → List String
  | decode error => [error.message]
  | numberOutOfRange => [numberOutOfRangeText]
  | _ => []

end Cbor

end SecureCoap
