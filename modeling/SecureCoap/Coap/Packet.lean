import SecureCoap.Coap.Code
import SecureCoap.Coap.Options

/-!
# Messages and their wire format

A message starts with a header of four bytes and a token. Its options follow in ascending order,
each with the distance of its number from the one before, and then, after a marker, the payload.
-/

namespace SecureCoap

namespace Coap

inductive Error where
  | invalidHeader
  | invalidPacketLength
  | invalidTokenLength
  | invalidOptionDelta
  | invalidOptionLength
deriving DecidableEq, Repr

def Error.message : Error → String
  | invalidHeader => "CoAP error: invalid header"
  | invalidPacketLength => "CoAP error: invalid packet length"
  | invalidTokenLength => "CoAP error: invalid token length"
  | invalidOptionDelta => "CoAP error: invalid option delta"
  | invalidOptionLength => "CoAP error: invalid option length"

/-- How a message is acknowledged. -/
inductive MessageType where
  | confirmable
  | nonConfirmable
  | acknowledgement
  | reset
deriving DecidableEq, Repr

def MessageType.number : MessageType → Nat
  | confirmable => 0
  | nonConfirmable => 1
  | acknowledgement => 2
  | reset => 3

/-- The message type with a number, of which the last two bits count. -/
def MessageType.ofNumber (n : Nat) : MessageType :=
  match n % 4 with
  | 0 => confirmable
  | 1 => nonConfirmable
  | 2 => acknowledgement
  | _ => reset

structure Packet where
  version : Fin 4
  type : MessageType
  code : Code
  messageId : UInt16
  token : Bytes
  options : Options
  payload : Bytes
deriving DecidableEq, Repr

def Packet.ofCode (code : Code) : Packet where
  version := 1
  type := .confirmable
  code := code
  messageId := 0
  token := []
  options := .empty
  payload := []

/-! ### Writing options -/

/-- The four bits that stand for a distance or a length. -/
def nibble (n : Nat) : Nat := if n < 13 then n else if n < 269 then 13 else 14

/-- The bytes that follow for a distance or a length. From 269 on, two bytes hold what is left. -/
def extension (n : Nat) : Bytes :=
  if n < 13 then [] else if n < 269 then Bytes.ofNat 1 (n - 13) else Bytes.ofNat 2 (n - 269)

/-- An option value whose number is `delta` above the one before. -/
def encodeOption (delta : Nat) (value : Bytes) : Bytes :=
  UInt8.ofNat (16 * nibble delta + nibble value.length)
    :: extension delta ++ extension value.length ++ value

def encodeValues (delta : Nat) : List Bytes → Bytes
  | [] => []
  | v :: vs => encodeOption delta v ++ vs.flatMap (encodeOption 0)

def encodeEntries (last : Nat) : List (Nat × List Bytes) → Bytes
  | [] => []
  | (_, []) :: es => encodeEntries last es
  | (n, v :: vs) :: es => encodeValues (n - last) (v :: vs) ++ encodeEntries n es

def Options.encode (opts : Options) : Bytes := encodeEntries 0 opts.entries

/-! ### Writing messages -/

def maxPacketLength : Nat := 1280

/-- Options and payload as they are written. An empty message has no payload. -/
def Packet.contents (p : Packet) : Bytes :=
  p.options.encode ++ if p.payload ≠ [] ∧ p.code ≠ .empty then 0xFF :: p.payload else []

/-- The number of bytes that the length limit is about. The payload of an empty message counts,
although it is not written. -/
def Packet.length (p : Packet) : Nat :=
  4 + p.token.length + p.options.encode.length + p.payload.length
    + if p.payload ≠ [] ∧ p.code ≠ .empty then 1 else 0

def Packet.initial (p : Packet) : UInt8 :=
  UInt8.ofNat (64 * p.version.val + 16 * p.type.number + p.token.length)

def Packet.serialize (p : Packet) : Except Error Bytes :=
  if p.length ≤ maxPacketLength then
    .ok (p.initial :: p.code.toByte :: Bytes.ofNat 2 p.messageId.toNat ++ p.token ++ p.contents)
  else .error .invalidPacketLength

/-! ### Reading -/

/-- The number that four bits stand for, and what is left after the bytes that belong to it. -/
def readExtended (nibble : Nat) (bs : Bytes) (reserved : Error) : Except Error (Nat × Bytes) :=
  match nibble, bs with
  | 13, b :: rest => .ok (b.toNat + 13, rest)
  | 13, _ => .error .invalidOptionLength
  | 14, b :: b' :: rest => .ok (Bytes.toNat [b, b'] + 269, rest)
  | 14, _ => .error .invalidOptionLength
  | 15, _ => .error reserved
  | n, rest => .ok (n, rest)

/-- Reads options after one with number `last`, and the payload. There are at most `n` options;
each takes at least a byte. -/
def readContents : (n : Nat) → (last : Nat) → Options → Bytes → Except Error (Options × Bytes)
  | 0, _, opts, _ => .ok (opts, [])
  | _, _, opts, [] => .ok (opts, [])
  | _, _, opts, 0xFF :: payload => .ok (opts, payload)
  | n + 1, last, opts, b :: rest => do
    let (delta, rest) ← readExtended (b.toNat / 16) rest .invalidOptionDelta
    let (length, rest) ← readExtended (b.toNat % 16) rest .invalidOptionLength
    if rest.length < length then throw .invalidOptionLength
    readContents n (last + delta) (opts.add (last + delta) (rest.take length)) (rest.drop length)

def Packet.parse : Bytes → Except Error Packet
  | b :: code :: high :: low :: rest => do
    let tokenLength := b.toNat % 16
    if 8 < tokenLength ∨ rest.length < tokenLength then throw .invalidTokenLength
    let contents := rest.drop tokenLength
    let (options, payload) ← readContents contents.length 0 .empty contents
    return {
      version := Fin.ofNat 4 (b.toNat / 64)
      type := .ofNumber (b.toNat / 16)
      code := .ofByte code
      messageId := UInt16.ofNat (Bytes.toNat [high, low])
      token := rest.take tokenLength
      options
      payload }
  | _ => .error .invalidHeader

end Coap

end SecureCoap
