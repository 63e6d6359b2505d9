import SecureCoap.Cbor.ByteString
import SecureCoap.Log
import SecureCoap.Oscore.Call
import SecureCoap.Session.Error

/-!
# Sending the final message along with a request

A context that comes out of a handshake may still have the final message to send. The first request
that it protects carries that message in front of its payload, marked by an option without content.
After that it is like any other context.
-/

namespace SecureCoap

namespace Session

/-- A security context, and the final message as long as it waits for the first request. -/
structure EdhocContext where
  context : Oscore.Context
  pending : Option Bytes
deriving DecidableEq, Repr

/-- A protected request, what identifies it, and the final message if it carries that. -/
structure Protected where
  packet : Coap.Packet
  request : Oscore.RequestId
  carried : Option Bytes
deriving DecidableEq, Repr

def Protected.log (p : Protected) : List LogEntry :=
  match p.carried with
  | some message => [.combining p.request.sequenceNumber message.length]
  | none => []

/-- The request that carries a message in front of its payload. -/
def combine (message : Bytes) (request : Coap.Packet) : Coap.Packet :=
  { request with
    options := request.options.add Coap.Options.edhoc []
    payload := message ++ request.payload }

namespace EdhocContext

def senderId (c : EdhocContext) : Bytes := c.context.senderId

def recipientId (c : EdhocContext) : Bytes := c.context.recipientId

/-- Protects a request, together with the final message if that is still waiting. -/
def protect (crypto : Primitives) (request : Coap.Packet) (c : EdhocContext) :
    Except Error Protected × EdhocContext :=
  match c.context.protectRequest crypto request with
  | (.error e, context) => (.error (.oscore e), { c with context })
  | (.ok (packet, id), context) =>
    match c.pending with
    | some message => (.ok ⟨combine message packet, id, some message⟩, ⟨context, none⟩)
    | none => (.ok ⟨packet, id, none⟩, { c with context })

def lift {α : Type} (step : Oscore.Context → Except Oscore.Error α × Oscore.Context)
    (c : EdhocContext) : Except Error α × EdhocContext :=
  let (result, context) := step c.context
  (result.mapError .oscore, { c with context })

def unprotectResponse (crypto : Primitives) (response : Coap.Packet) (request : Oscore.RequestId) :
    EdhocContext → Except Error Coap.Packet × EdhocContext :=
  lift (Oscore.Context.unprotectResponse crypto response request)

def unprotectRequest (crypto : Primitives) (request : Coap.Packet) :
    EdhocContext → Except Error (Coap.Packet × Oscore.RequestId) × EdhocContext :=
  lift (Oscore.Context.unprotectRequest crypto request)

def protectResponse (crypto : Primitives) (response : Coap.Packet) (request : Oscore.RequestId)
    (reusePiv : Bool) : EdhocContext → Except Error Coap.Packet × EdhocContext :=
  lift (Oscore.Context.protectResponse crypto response request reusePiv)

def perform (crypto : Primitives) (call : Oscore.Call) (c : EdhocContext) :
    Except Error Oscore.Outcome × EdhocContext :=
  match call with
  | .protectRequest request =>
    (c.protect crypto request).map (Except.map fun p => ⟨p.packet, some p.request⟩) id
  | .unprotectRequest packet =>
    (c.unprotectRequest crypto packet).map (Except.map Oscore.Outcome.request) id
  | .protectResponse response request reusePiv =>
    (c.protectResponse crypto response request reusePiv).map (Except.map Oscore.Outcome.response) id
  | .unprotectResponse packet request =>
    (c.unprotectResponse crypto packet request).map (Except.map Oscore.Outcome.response) id

def history (crypto : Primitives) (c : EdhocContext) (calls : List Oscore.Call) :
    List (Step EdhocContext Oscore.Call) :=
  SecureCoap.history (perform crypto) c calls

def after (crypto : Primitives) (c : EdhocContext) (calls : List Oscore.Call) : EdhocContext :=
  finalState (perform crypto) c calls

end EdhocContext

/-- Separates the final message from the request that carries it. A request without the option that
marks one is left as it is. -/
def splitCombined (request : Coap.Packet) : Except Error (Option Bytes × Coap.Packet) :=
  if request.options.has Coap.Options.edhoc then
    match Cbor.byteStringLength request.payload with
    | .error e => .error (.cbor e)
    | .ok n =>
      .ok (some (request.payload.take n),
        { request with
          options := request.options.clear Coap.Options.edhoc
          payload := request.payload.drop n })
  else .ok (none, request)

end Session

end SecureCoap
