import SecureCoap.Edhoc.Engine
import SecureCoap.Session.Piggyback

/-!
# From a handshake to a context

What a conversation with an engine leaves behind is its state and a record of events. At the end of
a handshake the engine exports a secret and a salt, of which the context is derived. Each side sends
with the identifier that the other one chose.
-/

namespace SecureCoap

namespace Session

open Edhoc (ConnectionId Engine Query)

/-! ### Conversations -/

inductive Event where
  | asked (query : Query)
  | sent (destination : String) (packet : Coap.Packet)
  /-- The context with this number was registered. -/
  | registered (destination : String) (context : Nat)
  | forgotten (destination : String)
  | logged (entry : LogEntry)
deriving DecidableEq, Repr

/-- The state of an engine, and what happened so far, in order. -/
structure Conversation (ε : Type) where
  engine : ε
  events : List Event

/-- A part of a conversation, which may fail; what happened until then stays. -/
abbrev Talk (ε : Type) := ExceptT Error (StateM (Conversation ε))

namespace Talk

variable {ε : Type}

def record (event : Event) : Talk ε Unit :=
  modify fun c => { c with events := c.events ++ [event] }

def ask (engine : Engine ε) (query : Query) (failed : Edhoc.Error → Error) :
    Talk ε query.Reply := do
  record (.asked query)
  let c ← get
  let (answer, state) := engine.answer query c.engine
  set { c with engine := state }
  match answer with
  | .ok reply => return reply
  | .error e => throw (failed e)

end Talk

/-! ### Derivation -/

def algorithmsForSuite (suite : Int) :
    Except Error (Oscore.AeadAlgorithm × Oscore.HashAlgorithm) :=
  if suite = Edhoc.suite2 then .ok (.aesCcm16_64_128, .sha256) else .error (.unsupportedSuite suite)

def secretLabel : Nat := 0

def saltLabel : Nat := 1

def saltLength : Nat := 8

def windowSize : Nat := 32

/-- The parameters of a context: what was exported, and the identifiers, which have to differ. -/
def parameters (secret salt : Bytes) (ours theirs : ConnectionId) (aead : Oscore.AeadAlgorithm)
    (hash : Oscore.HashAlgorithm) : Except Error Oscore.Parameters := do
  let senderId ← theirs.toOscoreId.mapError .edhoc
  let recipientId ← ours.toOscoreId.mapError .edhoc
  if senderId = recipientId then throw (.identifierCollision senderId)
  return {
    masterSecret := secret
    masterSalt := salt
    senderId
    recipientId
    idContext := none
    aead
    hash
    windowSize }

/-- Derives the context of a handshake that the engine has completed, with the identifiers that
either side chose and the final message if that is still to be sent. -/
def derive {ε : Type} (crypto : Primitives) (engine : Engine ε) (pending : Option Bytes)
    (ours theirs : ConnectionId) : Talk ε EdhocContext := do
  let suite := engine.suite (← get).engine
  let (aead, hash) ← algorithmsForSuite suite
  let secret ← Talk.ask engine (.exporter secretLabel [] aead.keyLength) .edhoc
  let salt ← Talk.ask engine (.exporter saltLabel [] saltLength) .edhoc
  let p ← parameters secret salt ours theirs aead hash
  Talk.record (.logged (.derivingContext suite p.senderId p.recipientId))
  let context ← (Oscore.Context.derive crypto p).mapError Error.oscore
  return ⟨context, pending⟩

end Session

end SecureCoap
