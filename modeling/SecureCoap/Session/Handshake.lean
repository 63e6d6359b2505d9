import SecureCoap.Edhoc.ErrorMessage
import SecureCoap.Registry.Basic
import SecureCoap.Session.Config
import SecureCoap.Session.Derivation
import SecureCoap.Session.Transport

/-!
# Handshakes

The initiator's side of a handshake. It sends the first message, checks the second one against the
registry of trusted credentials, derives a security context, and sends the first request of the
application under that context, together with the final message. The context is registered with the
transport before that, and removed again if the first request fails.
-/

namespace SecureCoap

namespace Session

/-- What a handshake works with: cryptography, an engine, a link, the trusted credentials, and the
configuration of the initiator. -/
structure Setting (ε τ : Type) where
  crypto : Primitives
  engine : Edhoc.Engine ε
  link : Link τ
  registry : Registry.Table
  config : Config

/-- All that a handshake changes: the conversation with the engine, the phase it is in, and the
transport. -/
structure World (ε τ : Type) where
  conversation : Conversation ε
  phase : Phase
  transport : Transport τ

def World.fresh {ε τ : Type} (engine : ε) (transport : Transport τ) : World ε τ :=
  ⟨⟨engine, []⟩, .start, transport⟩

/-- A step of a handshake, which may fail; what it changed until then stays. -/
abbrev Step (ε τ : Type) := ExceptT Error (StateM (World ε τ))

/-- An established session: its context, which is registered with the transport, and the response
to the first request. -/
structure Established where
  context : ContextId
  response : Coap.Packet
deriving DecidableEq, Repr

namespace Handshake

variable {ε τ : Type}

/-! ### Elementary steps -/

def talk {α : Type} (part : Talk ε α) : Step ε τ α := do
  let w ← get
  let (result, conversation) := part.run.run w.conversation
  set { w with conversation }
  match result with
  | .ok a => return a
  | .error e => throw e

def record (event : Event) : Step ε τ Unit := talk (Talk.record event)

def log (entry : LogEntry) : Step ε τ Unit := record (.logged entry)

def ask (s : Setting ε τ) (query : Edhoc.Query) : Step ε τ query.Reply :=
  talk (Talk.ask s.engine query .edhoc)

def enter (phase : Phase) : Step ε τ Unit := do
  log (.phaseChange (← get).phase phase)
  modify fun w => { w with phase }

def onTransport {α : Type} (change : Transport τ → α × Transport τ) : Step ε τ α := do
  let w ← get
  let (a, transport) := change w.transport
  set { w with transport }
  return a

/-- Sends a packet and waits for the response, but no longer than configured. -/
def exchange (s : Setting ε τ) (destination : String) (packet : Coap.Packet) :
    Step ε τ Coap.Packet := do
  record (.sent destination packet)
  let reply ← onTransport (Transport.sendPlain s.link destination packet)
  match reply.within s.config.timeout with
  | .ok response => return response
  | .error e => throw (.transport e)

/-! ### The first two messages -/

def messageRequest (config : Config) (payload : Bytes) : Coap.Packet :=
  { Coap.Packet.ofCode (.request .post) with
    options := config.pathSegments.foldl
      (fun opts segment => opts.add Coap.Options.uriPath (Utf8.encode segment)) .empty
    payload }

/-- Sends the first message and takes what the second one tells. -/
def greet (s : Setting ε τ) (destination : String) : Step ε τ Edhoc.SecondMessage := do
  let message ← ask s (.firstMessage s.config.connectionId)
  let request := messageRequest s.config (Edhoc.firstPayload message)
  enter .sentFirst
  let response ← exchange s destination request
  match Edhoc.failOnErrorMessage response.payload with
  | .error e => throw (.edhoc e)
  | .ok () =>
    let second : Edhoc.SecondMessage ← ask s (.secondMessage response.payload)
    enter .receivedSecond
    return second

/-- Refuses external data that must be understood, and tells of other. -/
def checkEad (ead : Option Edhoc.EadItem) : Step ε τ Unit :=
  match ead with
  | none => return ()
  | some item =>
    if item.isCritical then throw (.criticalEad item.label) else log (.ignoringEad item.label)

def authenticate (s : Setting ε τ) (second : Edhoc.SecondMessage) : Step ε τ Unit := do
  checkEad second.ead
  match s.registry.lookup? second.credentialId with
  | none => throw (.unknownPeer second.credentialId)
  | some peer =>
    talk (Talk.ask s.engine (.verifyPeer s.config.identity s.config.credential peer.bytes)
      .authenticationFailed)
    enter .verified

/-! ### The final message and the first request -/

def agree (s : Setting ε τ) (second : Edhoc.SecondMessage) : Step ε τ EdhocContext := do
  let message : Bytes ← ask s (.finalMessage s.config.transfer)
  let context ← talk (derive s.crypto s.engine (some message) s.config.connectionId
    second.connectionId)
  enter .contextReady
  return context

def register (destination : String) (context : EdhocContext) : Step ε τ ContextId := do
  let id ← onTransport (Transport.addContext context)
  let registered ← onTransport (Transport.register destination id)
  registered.log.forM log
  record (.registered destination id)
  return id

/-- Sends the first request under the context, and unprotects the response. -/
def firstExchange (s : Setting ε τ) (destination : String) (id : ContextId)
    (context : EdhocContext) (request : Coap.Packet) : Step ε τ Coap.Packet := do
  let (result, context) := context.protect s.crypto request
  onTransport fun t => ((), t.setContext id context)
  let message ← result
  message.log.forM log
  enter .sentFirstRequest
  let response ← exchange s destination message.packet
  let (result, context) := context.unprotectResponse s.crypto response message.request
  onTransport fun t => ((), t.setContext id context)
  result

def forget (destination : String) : Step ε τ Unit := do
  let _ ← onTransport (Transport.forget destination)
  record (.forgotten destination)

/-! ### Whole handshakes -/

/-- All of a handshake but how it ends. -/
def advance (s : Setting ε τ) (destination : String) (request : Coap.Packet) :
    Step ε τ (Established × EdhocContext) := do
  let second ← greet s destination
  authenticate s second
  let context ← agree s second
  let id ← register destination context
  let response ← tryCatch (firstExchange s destination id context request) fun e => do
    forget destination
    throw e
  return (⟨id, response⟩, context)

def abort (destination : String) (e : Error) : Step ε τ Unit := do
  log (.aborted destination (← get).phase e.message e.isRetryable)
  modify fun w => { w with phase := .aborted }

/-- Runs the handshake with a destination, and sends the first request under the context that comes
of it. -/
def run (s : Setting ε τ) (destination : String) (request : Coap.Packet) :
    Step ε τ Established := do
  let (session, context) ← tryCatch (advance s destination request) fun e => do
    abort destination e
    throw e
  enter .established
  log (.established destination context.senderId context.recipientId)
  return session

end Handshake

end Session

end SecureCoap
