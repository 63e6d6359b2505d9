import SecureCoap.Coap.Packet
import SecureCoap.Oscore.Error

/-!
# The value of the option of protected messages

A flag byte, a partial initialisation vector and the identifier of the sender, of which a message
may lack either or both. With neither, the value is empty.
-/

namespace SecureCoap

namespace Oscore

/-- What the option tells about a message. -/
structure OptionValue where
  /-- The identifier of the sender. -/
  kid : Option Bytes
  /-- The partial initialisation vector. -/
  piv : Option Bytes
deriving DecidableEq, Repr

namespace OptionValue

def kidFlag : Nat := 8

/-- The flag byte: the length of the partial initialisation vector in the last three bits, and the
flag for the identifier. -/
def flags (v : OptionValue) : UInt8 :=
  UInt8.ofNat ((v.piv.getD []).length % 8 + if v.kid.isSome then kidFlag else 0)

def encode (v : OptionValue) : Bytes :=
  if v.kid = none ∧ v.piv = none then []
  else v.flags :: v.piv.getD [] ++ v.kid.getD []

/-- What a value tells. One that is shorter than it announces tells nothing. -/
def decode : Bytes → OptionValue
  | [] => ⟨none, none⟩
  | flags :: rest =>
    let n := flags.toNat % 8
    if rest.length < n then ⟨none, none⟩
    else
      { kid := if flags.toNat / kidFlag % 2 = 1 then some (rest.drop n) else none
        piv := if n = 0 then none else some (rest.take n) }

/-- `decode` by slices of the value; none if one of them is not within it. -/
def decode? : Bytes → Option OptionValue
  | [] => some ⟨none, none⟩
  | flags :: rest =>
    let value := flags :: rest
    let n := (flags &&& 0b0111).toNat
    if n ≠ 0 ∧ value.length ≤ n then some ⟨none, none⟩
    else do
      let piv ← if n = 0 then some none else (Bytes.slice? 1 (1 + n) value).map some
      let kid ←
        if flags &&& 0b1000 = 0 then some none
        else (Bytes.slice? (1 + n) value.length value).map some
      return ⟨kid, piv⟩

/-- What the first value of the option tells in a message, which has to have one. -/
def ofPacket (p : Coap.Packet) : Except Error OptionValue :=
  match p.options.values Coap.Options.oscore with
  | [] => .error .noOption
  | v :: _ => .ok (decode v)

end OptionValue

end Oscore

end SecureCoap
