import SecureCoap.History
import SecureCoap.Oscore.Protection

/-!
# Calls on a context

The four operations on a security context as data, so that what is done with a context over time
is a list, and what two endpoints do with theirs is a list of calls on either side.
-/

namespace SecureCoap

namespace Oscore

/-! ### One context -/

/-- A use of a context. -/
inductive Call where
  | protectRequest (request : Coap.Packet)
  | unprotectRequest (packet : Coap.Packet)
  | protectResponse (response : Coap.Packet) (request : RequestId) (reusePiv : Bool)
  | unprotectResponse (packet : Coap.Packet) (request : RequestId)
deriving DecidableEq, Repr

/-- What a call gives if it succeeds: a message, and for a request what identifies it. -/
structure Outcome where
  packet : Coap.Packet
  id : Option RequestId
deriving DecidableEq, Repr

def Outcome.request (r : Coap.Packet × RequestId) : Outcome := ⟨r.1, some r.2⟩

def Outcome.response (packet : Coap.Packet) : Outcome := ⟨packet, none⟩

def Context.perform (crypto : Primitives) (call : Call) (ctx : Context) :
    Except Error Outcome × Context :=
  match call with
  | .protectRequest request =>
    (ctx.protectRequest crypto request).map (Except.map Outcome.request) id
  | .unprotectRequest packet =>
    (ctx.unprotectRequest crypto packet).map (Except.map Outcome.request) id
  | .protectResponse response request reusePiv =>
    (ctx.protectResponse crypto response request reusePiv).map (Except.map Outcome.response) id
  | .unprotectResponse packet request =>
    (ctx.unprotectResponse crypto packet request).map (Except.map Outcome.response) id

def Context.history (crypto : Primitives) (ctx : Context) (calls : List Call) :
    List (Step Context Call) :=
  SecureCoap.history (Context.perform crypto) ctx calls

def Context.after (crypto : Primitives) (ctx : Context) (calls : List Call) : Context :=
  finalState (Context.perform crypto) ctx calls

namespace Call

/-- What a call gives to encryption. -/
def sealing? (ctx : Context) : Call → Option Sealing
  | protectRequest request => (ctx.requestSealing request).toOption.map (·.1)
  | protectResponse response request reusePiv =>
    (ctx.responseSealing response request reusePiv).toOption.map (·.1)
  | _ => none

/-- What a call gives to decryption. -/
def opening? (ctx : Context) : Call → Option Opening
  | unprotectRequest packet => (ctx.requestOpening packet).toOption.map (·.1)
  | unprotectResponse packet request => (ctx.responseOpening packet request).toOption
  | _ => none

/-- Whether a call is about a message to send; the other calls are about a received one. -/
def protects : Call → Bool
  | protectRequest _ | protectResponse .. => true
  | unprotectRequest _ | unprotectResponse .. => false

/-- Whether a call protects a message with the next sequence number, if it succeeds. -/
def takesNumber : Call → Bool
  | protectRequest _ => true
  | protectResponse _ _ reusePiv => !reusePiv
  | _ => false

/-- Whether a call protects a response under the nonce of the request. -/
def reusesNonce : Call → Bool
  | protectResponse _ _ reusePiv => reusePiv
  | _ => false

def answered? : Call → Option RequestId
  | protectResponse _ request _ => some request
  | _ => none

end Call

/-! ### Two contexts -/

inductive Side where
  | a
  | b
deriving DecidableEq, Repr

/-- A call on the context of one of two endpoints. -/
structure Move where
  side : Side
  call : Call
deriving DecidableEq, Repr

structure Pair where
  a : Context
  b : Context
deriving DecidableEq, Repr

namespace Pair

def context (p : Pair) : Side → Context
  | .a => p.a
  | .b => p.b

def set (p : Pair) (side : Side) (ctx : Context) : Pair :=
  match side with
  | .a => { p with a := ctx }
  | .b => { p with b := ctx }

def perform (crypto : Primitives) (m : Move) (p : Pair) : Except Error Outcome × Pair :=
  ((p.context m.side).perform crypto m.call).map id (p.set m.side)

def history (crypto : Primitives) (p : Pair) (moves : List Move) : List (Step Pair Move) :=
  SecureCoap.history (Pair.perform crypto) p moves

end Pair

end Oscore

end SecureCoap
