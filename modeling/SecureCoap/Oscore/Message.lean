import SecureCoap.Oscore.Context
import SecureCoap.Oscore.OptionValue

/-!
# Inner and outer messages

A protected message has two parts. What the endpoints are to hear goes inside, encrypted: the code,
the payload and most options. What the way there needs stays outside, together with a code that only
tells requests from responses, and the option that says how the message is protected.
-/

namespace SecureCoap

namespace Oscore

/-- The options that stay outside. -/
def publicOptions : List Nat := [
  Coap.Options.uriHost, Coap.Options.uriPort, Coap.Options.proxyUri, Coap.Options.proxyScheme,
  Coap.Options.edhoc]

def isPrivate (number : Nat) : Bool := !publicOptions.contains number

/-- Fails about the first entry of an option that is not supported, with or without values. -/
def checkOptions (opts : Coap.Options) : Except Error Unit :=
  match opts.entries.findSome? fun (n, _) => Unsupported.ofNumber? n with
  | some option => .error (.unsupportedOption option)
  | none => .ok ()

/-- The code outside of a message with this code. -/
def outerCode (code : Coap.Code) : Coap.Code :=
  if code.isResponse then .response .changed else .request .post

def inner (p : Coap.Packet) : Coap.Packet :=
  { Coap.Packet.ofCode p.code with
    options := p.options.filter isPrivate
    payload := p.payload }

/-- The part of a message that stays outside, with a value for the option that says how it is
protected and a ciphertext. -/
def outer (p : Coap.Packet) (option ciphertext : Bytes) : Coap.Packet :=
  { p with
    code := outerCode p.code
    options := (p.options.clearWhere isPrivate).add Coap.Options.oscore option
    payload := ciphertext }

/-- What is encrypted of an inner message: code, options and payload, but not the rest of the
header. -/
def plaintext (p : Coap.Packet) : Except Error Bytes :=
  if p.length ≤ Coap.maxPacketLength then .ok (p.code.toByte :: p.contents)
  else .error (.coap .invalidPacketLength)

def parsePlaintext : Bytes → Except Error Coap.Packet
  | [] => .error .malformedPlaintext
  | code :: rest => (Coap.Packet.parse (0x40 :: code :: 0 :: 0 :: rest)).mapError .coap

/-- An outer message without the options that do not belong there, with what was inside. -/
def merge (p inside : Coap.Packet) : Coap.Packet :=
  { p with
    code := inside.code
    options := (p.options.clearWhere isPrivate).overwrite inside.options
    payload := inside.payload }

/-! ### Encryption and decryption -/

/-- What is encrypted, and under what. -/
structure Sealing where
  key : Bytes
  nonce : Bytes
  aad : Bytes
  plaintext : Bytes
deriving DecidableEq, Repr

def Sealing.run (crypto : Primitives) (s : Sealing) : Except Error Bytes :=
  match crypto.encrypt s.key s.nonce s.aad s.plaintext with
  | some ciphertext => .ok ciphertext
  | none => .error .encryption

/-- What is decrypted, and under what. -/
structure Opening where
  key : Bytes
  nonce : Bytes
  aad : Bytes
  ciphertext : Bytes
deriving DecidableEq, Repr

def Opening.run (crypto : Primitives) (o : Opening) : Except Error Bytes :=
  match crypto.decrypt o.key o.nonce o.aad o.ciphertext with
  | some plaintext => .ok plaintext
  | none => .error .encryption

namespace Context

/-- The nonce for a partial initialisation vector that this endpoint chose. -/
def ownNonce (ctx : Context) (piv : Bytes) : Bytes := nonce piv ctx.senderId ctx.commonIv

/-- The nonce for a partial initialisation vector that the other endpoint chose. -/
def peerNonce (ctx : Context) (piv : Bytes) : Bytes := nonce piv ctx.recipientId ctx.commonIv

/-- What is encrypted of a message that is, or answers, the request `id`. -/
def sealing (ctx : Context) (p : Coap.Packet) (id : RequestId) (nonce : Bytes) :
    Except Error Sealing := do
  checkOptions p.options
  let text ← plaintext (inner p)
  return ⟨ctx.senderKey, nonce, aad ctx.aead id.kid id.piv, text⟩

/-- What is decrypted of a protected message that is, or answers, the request `id`. -/
def opening (ctx : Context) (p : Coap.Packet) (id : RequestId) (nonce : Bytes) :
    Except Error Opening := do
  checkOptions p.options
  return ⟨ctx.recipientKey, nonce, aad ctx.aead id.kid id.piv, p.payload⟩

end Context

end Oscore

end SecureCoap
