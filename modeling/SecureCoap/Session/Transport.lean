import SecureCoap.Session.Piggyback

/-!
# Protected transport

A link sends a request to a destination and gives back a response after a while. On top of it,
requests to a destination for which a context is registered are protected with that context, and
the responses unprotected; other requests go out as they are.

Contexts are shared: a destination is registered with the name of a context, and all who have the
name use the same context.
-/

namespace SecureCoap

namespace Session

/-- What a link gives back for a request, and after how many milliseconds. -/
structure Reply where
  result : Except TransportError Coap.Packet
  delay : Nat

structure Link (τ : Type) where
  send : (destination : String) → Coap.Packet → τ → Reply × τ

/-- What came of waiting for a reply for at most so many milliseconds. A reply that is there at once
counts even if there is no time to wait. -/
def Reply.within (reply : Reply) (patience : Nat) : Except TransportError Coap.Packet :=
  if reply.delay ≤ patience then reply.result else .error .timeout

/-- The name of a context: its place among all contexts. -/
abbrev ContextId := Nat

/-- A link, all contexts there are, and which of them belongs to which destination. -/
structure Transport (τ : Type) where
  link : τ
  contexts : List EdhocContext
  routes : List (String × ContextId)

namespace Transport

variable {τ : Type}

/-! ### Contexts -/

def addContext (context : EdhocContext) (t : Transport τ) : ContextId × Transport τ :=
  (t.contexts.length, { t with contexts := t.contexts ++ [context] })

def context? (t : Transport τ) (id : ContextId) : Option EdhocContext := t.contexts[id]?

def setContext (t : Transport τ) (id : ContextId) (context : EdhocContext) : Transport τ :=
  { t with contexts := t.contexts.set id context }

/-! ### Destinations -/

/-- The name of the context that is registered for a destination. -/
def contextFor? (t : Transport τ) (destination : String) : Option ContextId :=
  t.routes.lookup destination

def forget (destination : String) (t : Transport τ) : Option ContextId × Transport τ :=
  (t.contextFor? destination, { t with routes := t.routes.filter (·.1 ≠ destination) })

structure Registered where
  replaced : Option ContextId
  log : List LogEntry

/-- Registers a context for a destination, in place of the one there. -/
def register (destination : String) (id : ContextId) (t : Transport τ) :
    Registered × Transport τ :=
  let log := (t.context? id).toList.map fun context =>
    .contextRegistered destination context.senderId
  let (replaced, t) := t.forget destination
  (⟨replaced, log⟩, { t with routes := (destination, id) :: t.routes })

/-! ### Sending -/

def sendPlain (link : Link τ) (destination : String) (request : Coap.Packet) (t : Transport τ) :
    Reply × Transport τ :=
  let (reply, state) := link.send destination request t.link
  (reply, { t with link := state })

structure Sent where
  result : Except Error Coap.Packet
  log : List LogEntry

/-- Sends a request protected with a context, and unprotects the response. -/
def sendWith (crypto : Primitives) (link : Link τ) (id : ContextId) (context : EdhocContext)
    (destination : String) (request : Coap.Packet) (t : Transport τ) : Sent × Transport τ :=
  match context.protect crypto request with
  | (.error e, context) => (⟨.error e, []⟩, t.setContext id context)
  | (.ok message, context) =>
    match (t.setContext id context).sendPlain link destination message.packet with
    | (⟨.error e, _⟩, t) => (⟨.error (.transport e), message.log⟩, t)
    | (⟨.ok response, _⟩, t) =>
      let (result, context) := context.unprotectResponse crypto response message.request
      (⟨result, message.log⟩, t.setContext id context)

/-- Sends a request, protected if there is a context for its destination. -/
def send (crypto : Primitives) (link : Link τ) (destination : String) (request : Coap.Packet)
    (t : Transport τ) : Sent × Transport τ :=
  match (t.contextFor? destination).bind fun id => (t.context? id).map (id, ·) with
  | some (id, context) => t.sendWith crypto link id context destination request
  | none =>
    let (reply, t) := t.sendPlain link destination request
    (⟨reply.result.mapError .transport, []⟩, t)

end Transport

end Session

end SecureCoap
