import SecureCoap.Binary.Interchange
import SecureCoap.Text.Utf8

/-!
# Writing CBOR items

An item starts with its major type and an argument in the shortest form. Integers, byte strings
and texts need nothing else; an array or a map is followed by its elements.
-/

namespace SecureCoap

namespace Cbor

/-- The start of an item: major type and argument, in the fewest bytes. -/
def header (major argument : Nat) : Bytes :=
  let initial (info : Nat) : UInt8 := UInt8.ofNat (32 * major + info)
  if argument < 24 then [initial argument]
  else if argument < 0x100 then initial 24 :: Bytes.ofNat 1 argument
  else if argument < 0x10000 then initial 25 :: Bytes.ofNat 2 argument
  else if argument < 0x100000000 then initial 26 :: Bytes.ofNat 4 argument
  else initial 27 :: Bytes.ofNat 8 argument

/-- The integers that have an encoding. -/
def InRange (n : Int) : Prop := -0x10000000000000000 ≤ n ∧ n < 0x10000000000000000

instance (n : Int) : Decidable (InRange n) := inferInstanceAs (Decidable (_ ∧ _))

def encodeInt (n : Int) : Bytes :=
  if 0 ≤ n then header 0 n.toNat else header 1 (-1 - n).toNat

def encodeBytes (bs : Bytes) : Bytes := header 2 bs.length ++ bs

def encodeText (s : String) : Bytes := let bs := Utf8.encode s; header 3 bs.length ++ bs

def encodeArray (items : List Bytes) : Bytes := header 4 items.length ++ items.flatten

def encodeBool (b : Bool) : Bytes := [if b then 0xF5 else 0xF4]

def encodeNull : Bytes := [0xF6]

/-- A double in the shortest of the three formats that has its value; every NaN alike. -/
def encodeFloat (bits : UInt64) : Bytes :=
  let x := Binary.double.fields bits.toNat
  if x.isNaN then [0xF9, 0x7E, 0x00]
  else if x.isInfinite then [0xF9, if x.negative then 0xFC else 0x7C, 0x00]
  else
    match Binary.half.narrow? bits, Binary.single.narrow? bits with
    | some short, _ => 0xF9 :: Bytes.ofNat 2 short
    | none, some short => 0xFA :: Bytes.ofNat 4 short
    | none, none => 0xFB :: Bytes.ofNat 8 bits.toNat

end Cbor

end SecureCoap
