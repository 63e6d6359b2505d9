import SecureCoap.Oscore.Message

/-!
# Protecting requests and responses

The four operations on a security context. Each gives its result and the context after it. A
message that is protected under a new partial initialisation vector takes a sequence number, and a
request that is unprotected marks one as received; nothing else changes a context.
-/

namespace SecureCoap

namespace Oscore

namespace Context

/-! ### Requests -/

/-- What is encrypted of a request under the next sequence number, and what identifies the
request. -/
def requestSealing (ctx : Context) (request : Coap.Packet) :
    Except Error (Sealing × RequestId) := do
  let id : RequestId := ⟨ctx.senderId, ← ctx.nextPiv⟩
  let s ← ctx.sealing request id (ctx.ownNonce id.piv)
  return (s, id)

def sealRequest (crypto : Primitives) (ctx : Context) (request : Coap.Packet) :
    Except Error (Coap.Packet × RequestId) := do
  let (s, id) ← ctx.requestSealing request
  let ciphertext ← s.run crypto
  return (outer request (OptionValue.encode ⟨some id.kid, some id.piv⟩) ciphertext, id)

def protectRequest (crypto : Primitives) (request : Coap.Packet) (ctx : Context) :
    Except Error (Coap.Packet × RequestId) × Context :=
  match ctx.sealRequest crypto request with
  | .ok result => (.ok result, ctx.advance)
  | .error e => (.error e, ctx)

/-- What is decrypted of a protected request that was not received before, and what identifies the
request. -/
def requestOpening (ctx : Context) (packet : Coap.Packet) : Except Error (Opening × RequestId) := do
  match ← OptionValue.ofPacket packet with
  | ⟨some kid, some piv⟩ =>
    let id : RequestId := ⟨kid, piv⟩
    if ¬ctx.window.isValid id.sequenceNumber then throw .replayDetected
    let o ← ctx.opening packet id (ctx.peerNonce piv)
    return (o, id)
  | _ => throw .noKidPiv

def openRequest (crypto : Primitives) (ctx : Context) (packet : Coap.Packet) :
    Except Error (Coap.Packet × RequestId) := do
  let (o, id) ← ctx.requestOpening packet
  let inside ← parsePlaintext (← o.run crypto)
  return (merge packet inside, id)

def unprotectRequest (crypto : Primitives) (packet : Coap.Packet) (ctx : Context) :
    Except Error (Coap.Packet × RequestId) × Context :=
  match ctx.openRequest crypto packet with
  | .ok (request, id) => (.ok (request, id), ctx.accept id.sequenceNumber)
  | .error e => (.error e, ctx)

/-! ### Responses -/

/-- What is encrypted of the response to a request, either under the nonce of the request or under
the next sequence number, and the partial initialisation vector of the response if it has one. -/
def responseSealing (ctx : Context) (response : Coap.Packet) (request : RequestId)
    (reusePiv : Bool) : Except Error (Sealing × Option Bytes) :=
  if reusePiv then do
    let s ← ctx.sealing response request (ctx.peerNonce request.piv)
    return (s, none)
  else do
    let piv ← ctx.nextPiv
    let s ← ctx.sealing response request (ctx.ownNonce piv)
    return (s, some piv)

def sealResponse (crypto : Primitives) (ctx : Context) (response : Coap.Packet)
    (request : RequestId) (reusePiv : Bool) : Except Error Coap.Packet := do
  let (s, piv) ← ctx.responseSealing response request reusePiv
  let ciphertext ← s.run crypto
  return outer response (OptionValue.encode ⟨none, piv⟩) ciphertext

/-- Protects the response to a request, either under the nonce of the request or with the next
sequence number. -/
def protectResponse (crypto : Primitives) (response : Coap.Packet) (request : RequestId)
    (reusePiv : Bool) (ctx : Context) : Except Error Coap.Packet × Context :=
  match ctx.sealResponse crypto response request reusePiv with
  | .ok packet => (.ok packet, if reusePiv then ctx else ctx.advance)
  | .error e => (.error e, ctx)

/-- The nonce of a response to a request: that of its own partial initialisation vector, or else
that of the request. -/
def responseNonce (ctx : Context) (request : RequestId) (piv : Option Bytes) : Bytes :=
  match piv with
  | some piv => ctx.peerNonce piv
  | none => ctx.ownNonce request.piv

def responseOpening (ctx : Context) (packet : Coap.Packet) (request : RequestId) :
    Except Error Opening := do
  let option ← OptionValue.ofPacket packet
  ctx.opening packet request (ctx.responseNonce request option.piv)

def openResponse (crypto : Primitives) (ctx : Context) (packet : Coap.Packet)
    (request : RequestId) : Except Error Coap.Packet := do
  let o ← ctx.responseOpening packet request
  let inside ← parsePlaintext (← o.run crypto)
  return merge packet inside

def unprotectResponse (crypto : Primitives) (packet : Coap.Packet) (request : RequestId)
    (ctx : Context) : Except Error Coap.Packet × Context :=
  (ctx.openResponse crypto packet request, ctx)

end Context

end Oscore

end SecureCoap
