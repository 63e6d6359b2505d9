import SecureCoap.Checked
import SecureCoap.Oscore.Call

/-!
# The operations with every step checked

The operations on a security context once more, step by step as they are carried out on words and
byte strings: what is taken out of a message, put together, counted and shifted. If any step goes
out of range there is no result, not even an error.
-/

namespace SecureCoap

namespace Oscore

/-- What may end with an error, or go out of range. -/
abbrev Checked := ExceptT Error Option

/-! ### Partial initialisation vectors and nonces -/

def PartialIv.ofNumber? (n : Nat) : Option Bytes :=
  let digits := Bytes.ofNat 8 n
  match digits.findIdx? (· ≠ 0) with
  | some start => Bytes.slice? start digits.length digits
  | none => some [0]

def PartialIv.toNumber? (piv : Bytes) : Option Nat := do
  let piv ← Bytes.takeRight? 8 piv
  let digits ← Bytes.fill? (← Word.sub? 8 piv.length) 8 piv (List.replicate 8 0)
  return Bytes.toNat digits

def nonce? (piv id commonIv : Bytes) : Option Bytes := do
  let nonceLength := commonIv.length
  let id ← Bytes.takeRight? (← Word.sub? nonceLength 6) id
  let piv ← Bytes.takeRight? 5 piv
  let fields ← Bytes.modify? 0 (fun _ => UInt8.ofNat id.length) (List.replicate nonceLength 0)
  let idEnd ← Word.sub? nonceLength 5
  let fields ← Bytes.fill? (← Word.sub? idEnd id.length) idEnd id fields
  let fields ← Bytes.fill? (← Word.sub? nonceLength piv.length) nonceLength piv fields
  return Bytes.xor fields commonIv

/-! ### Replay windows -/

namespace ReplayWindow

variable (w : ReplayWindow)

def isValid? (n : Nat) : Option Bool :=
  match w.highest with
  | none => some true
  | some highest =>
    if highest < n then some true
    else do
      let age ← Word.sub? highest n
      if age < w.size then return w.seen &&& (← Word.shiftLeft? 1 age) = 0 else return false

def mask? : Option Nat :=
  if 64 ≤ w.size then some (UInt64.size - 1) else do Word.sub? (← Word.shiftLeft? 1 w.size) 1

def moved? (distance : Nat) : Option Nat := do
  let seen ← if 64 ≤ distance then some 0 else Word.shiftLeft? w.seen distance
  return seen ||| 1

def marked? (n : Nat) : Option ReplayWindow :=
  match w.highest with
  | none => do return { w with highest := some n, seen := ← w.moved? 64 }
  | some highest =>
    if n ≤ highest then do
      let age ← Word.sub? highest n
      if age < 64 then return { w with seen := w.seen ||| (← Word.shiftLeft? 1 age) } else return w
    else do return { w with highest := some n, seen := ← w.moved? (← Word.sub? n highest) }

def strikeOut? (n : Nat) : Option ReplayWindow := do
  let marked ← w.marked? n
  return { marked with seen := marked.seen &&& (← marked.mask?) }

end ReplayWindow

/-! ### Parts of messages -/

def OptionValue.encode? (v : OptionValue) : Option Bytes :=
  if v.kid = none ∧ v.piv = none then some []
  else do
    let value : Bytes := [0]
    let value ← match v.piv with
      | some piv => do
        let value ← value.modify? 0 (· ||| UInt8.ofNat piv.length &&& 0b0111)
        pure (value ++ piv)
      | none => some value
    match v.kid with
    | some kid => do
      let value ← value.modify? 0 (· ||| 0b1000)
      return value ++ kid
    | none => return value

def OptionValue.ofPacket? (p : Coap.Packet) : Checked OptionValue :=
  match p.options.values Coap.Options.oscore with
  | [] => throw .noOption
  | v :: _ => OptionValue.decode? v

/-- An item of which so many bytes in front are left out. -/
def itemFrom? (start : Nat) (item : Bytes) : Option Bytes := Bytes.remove? 0 start item

def aad? (aead : AeadAlgorithm) (kid piv : Bytes) : Option Bytes := do
  let array ← itemFrom? 0 (aadArray aead kid piv)
  itemFrom? 0 (Cbor.encodeArray [
    Cbor.encodeText "Encrypt0", Cbor.encodeBytes [], Cbor.encodeBytes array])

/-- What is encrypted of an inner message: first message identifier and token are cut out of all of
it, and then the first byte. -/
def plaintext? (p : Coap.Packet) : Checked Bytes := do
  let bytes ← (p.serialize.mapError .coap : Except Error Bytes)
  let bytes ← Bytes.remove? 2 (← Word.add? 4 p.token.length) bytes
  Bytes.remove? 0 1 bytes

/-! ### Encryption and decryption -/

/-- Encryption takes keys of 16 and nonces of 13 bytes. -/
def Sealing.run? (crypto : Primitives) (s : Sealing) : Checked Bytes := do
  let key ← Bytes.exactly? 16 s.key
  let nonce ← Bytes.exactly? 13 s.nonce
  Sealing.run crypto { s with key, nonce }

def Opening.run? (crypto : Primitives) (o : Opening) : Checked Bytes := do
  let key ← Bytes.exactly? 16 o.key
  let nonce ← Bytes.exactly? 13 o.nonce
  Opening.run crypto { o with key, nonce }

namespace Context

/-- The protected form of a message, with this value of the option that says how it is protected. -/
def protectMessage? (crypto : Primitives) (ctx : Context) (p : Coap.Packet)
    (aad nonce option : Bytes) : Checked Coap.Packet := do
  checkOptions p.options
  let text ← plaintext? (inner p)
  let ciphertext ← Sealing.run? crypto ⟨ctx.senderKey, nonce, aad, text⟩
  return outer p option ciphertext

def unprotectMessage? (crypto : Primitives) (ctx : Context) (p : Coap.Packet)
    (aad nonce : Bytes) : Checked Coap.Packet := do
  checkOptions p.options
  let text ← Opening.run? crypto ⟨ctx.recipientKey, nonce, aad, p.payload⟩
  return merge p (← parsePlaintext text)

def nextPiv? (ctx : Context) : Checked Bytes :=
  if ctx.sequenceNumber ≤ PartialIv.maxNumber then PartialIv.ofNumber? ctx.sequenceNumber
  else throw .sequenceNumberExhausted

def advance? (ctx : Context) : Option Context := do
  return { ctx with sequenceNumber := ← Word.add? ctx.sequenceNumber 1 }

def accept? (ctx : Context) (n : Nat) : Option Context := do
  return { ctx with window := ← ctx.window.strikeOut? n }

/-! ### Requests -/

def sealRequest? (crypto : Primitives) (ctx : Context) (request : Coap.Packet) :
    Checked (Coap.Packet × RequestId) := do
  let piv ← ctx.nextPiv?
  let aad ← aad? ctx.aead ctx.senderId piv
  let nonce ← nonce? piv ctx.senderId ctx.commonIv
  let option ← OptionValue.encode? ⟨some ctx.senderId, some piv⟩
  let packet ← ctx.protectMessage? crypto request aad nonce option
  return (packet, ⟨ctx.senderId, piv⟩)

def protectRequest? (crypto : Primitives) (request : Coap.Packet) (ctx : Context) :
    Option (Except Error (Coap.Packet × RequestId) × Context) := do
  match ← (ctx.sealRequest? crypto request).run with
  | .ok result => return (.ok result, ← ctx.advance?)
  | .error e => return (.error e, ctx)

def openRequest? (crypto : Primitives) (ctx : Context) (packet : Coap.Packet) :
    Checked (Coap.Packet × RequestId) := do
  match ← OptionValue.ofPacket? packet with
  | ⟨some kid, some piv⟩ =>
    let n ← PartialIv.toNumber? piv
    if ¬(← ctx.window.isValid? n) then throw .replayDetected
    let aad ← aad? ctx.aead kid piv
    let nonce ← nonce? piv ctx.recipientId ctx.commonIv
    let request ← ctx.unprotectMessage? crypto packet aad nonce
    return (request, ⟨kid, piv⟩)
  | _ => throw .noKidPiv

def unprotectRequest? (crypto : Primitives) (packet : Coap.Packet) (ctx : Context) :
    Option (Except Error (Coap.Packet × RequestId) × Context) := do
  match ← (ctx.openRequest? crypto packet).run with
  | .ok (request, id) =>
    return (.ok (request, id), ← ctx.accept? (← PartialIv.toNumber? id.piv))
  | .error e => return (.error e, ctx)

/-! ### Responses -/

def sealResponse? (crypto : Primitives) (ctx : Context) (response : Coap.Packet)
    (request : RequestId) (reusePiv : Bool) : Checked Coap.Packet := do
  let aad ← aad? ctx.aead request.kid request.piv
  if reusePiv then
    let nonce ← nonce? request.piv ctx.recipientId ctx.commonIv
    let option ← OptionValue.encode? ⟨none, none⟩
    ctx.protectMessage? crypto response aad nonce option
  else
    let piv ← ctx.nextPiv?
    let nonce ← nonce? piv ctx.senderId ctx.commonIv
    let option ← OptionValue.encode? ⟨none, some piv⟩
    ctx.protectMessage? crypto response aad nonce option

def protectResponse? (crypto : Primitives) (response : Coap.Packet) (request : RequestId)
    (reusePiv : Bool) (ctx : Context) : Option (Except Error Coap.Packet × Context) := do
  match ← (ctx.sealResponse? crypto response request reusePiv).run with
  | .ok packet => return (.ok packet, ← if reusePiv then some ctx else ctx.advance?)
  | .error e => return (.error e, ctx)

def openResponse? (crypto : Primitives) (ctx : Context) (packet : Coap.Packet)
    (request : RequestId) : Checked Coap.Packet := do
  let option ← OptionValue.ofPacket? packet
  let nonce ← match option.piv with
    | some piv => nonce? piv ctx.recipientId ctx.commonIv
    | none => nonce? request.piv ctx.senderId ctx.commonIv
  let aad ← aad? ctx.aead request.kid request.piv
  ctx.unprotectMessage? crypto packet aad nonce

def unprotectResponse? (crypto : Primitives) (packet : Coap.Packet) (request : RequestId)
    (ctx : Context) : Option (Except Error Coap.Packet × Context) := do
  return (← (ctx.openResponse? crypto packet request).run, ctx)

/-! ### Calls -/

def perform? (crypto : Primitives) (call : Call) (ctx : Context) :
    Option (Except Error Outcome × Context) :=
  match call with
  | .protectRequest request =>
    (ctx.protectRequest? crypto request).map (Prod.map (Except.map Outcome.request) id)
  | .unprotectRequest packet =>
    (ctx.unprotectRequest? crypto packet).map (Prod.map (Except.map Outcome.request) id)
  | .protectResponse response request reusePiv =>
    (ctx.protectResponse? crypto response request reusePiv).map
      (Prod.map (Except.map Outcome.response) id)
  | .unprotectResponse packet request =>
    (ctx.unprotectResponse? crypto packet request).map (Prod.map (Except.map Outcome.response) id)

/-- Calls one after another, with what each of them gives, and the context after them. -/
def performAll? (crypto : Primitives) :
    List Call → Context → Option (List (Except Error Outcome) × Context)
  | [], ctx => some ([], ctx)
  | call :: calls, ctx => do
    let (result, ctx) ← ctx.perform? crypto call
    let (results, ctx) ← performAll? crypto calls ctx
    return (result :: results, ctx)

end Context

end Oscore

end SecureCoap
