import SecureCoap.History
import SecureCoap.Session.Handshake

/-!
# Transcripts of handshakes

The events of a conversation tell what a handshake did. What came back follows from the states of
the engine and of the link, so that a list of events can be replayed into a transcript, in which
every question stands with its answer and every packet with the reply.
-/

namespace SecureCoap

namespace Session

variable {ε τ : Type}

/-! ### Acts -/

/-- Something that a handshake did, with what came back. -/
inductive Act where
  | asked (query : Edhoc.Query) (answer : Except Edhoc.Error query.Reply)
  | exchanged (destination : String) (packet : Coap.Packet) (reply : Reply)
  /-- The context with this name became that of the destination. -/
  | registered (destination : String) (context : ContextId)
  | forgotten (destination : String)

inductive Act.Kind where
  | firstMessage
  | secondMessage
  | verification
  | finalMessage
  | export
  | exchange
  | registration
  | removal
deriving DecidableEq, Repr

def Act.kind : Act → Act.Kind
  | asked (.firstMessage _) _ => .firstMessage
  | asked (.secondMessage _) _ => .secondMessage
  | asked (.verifyPeer ..) _ => .verification
  | asked (.finalMessage _) _ => .finalMessage
  | asked (.exporter ..) _ => .export
  | exchanged .. => .exchange
  | registered .. => .registration
  | forgotten _ => .removal

/-! ### Replaying events -/

/-- What events are about: the states of the engine and of the link, and the contexts of all
destinations. -/
structure Outside (ε τ : Type) where
  engine : ε
  link : τ
  routes : List (String × ContextId)
deriving DecidableEq, Repr

def World.outside (w : World ε τ) : Outside ε τ :=
  ⟨w.conversation.engine, w.transport.link, w.transport.routes⟩

namespace Setting

/-- What comes of an event; log entries are about nothing outside. -/
def react (s : Setting ε τ) (event : Event) (o : Outside ε τ) : Option Act × Outside ε τ :=
  match event with
  | .asked query =>
    let (answer, engine) := s.engine.answer query o.engine
    (some (.asked query answer), { o with engine })
  | .sent destination packet =>
    let (reply, link) := s.link.send destination packet o.link
    (some (.exchanged destination packet reply), { o with link })
  | .registered destination id =>
    (some (.registered destination id),
      { o with routes := (destination, id) :: o.routes.filter (·.1 ≠ destination) })
  | .forgotten destination =>
    (some (.forgotten destination), { o with routes := o.routes.filter (·.1 ≠ destination) })
  | .logged _ => (none, o)

def acts (s : Setting ε τ) (o : Outside ε τ) (events : List Event) : List Act :=
  (history s.react o events).filterMap fun step => step.result s.react

end Setting

/-- The events of a world that are not among those of an earlier one. -/
def World.newEvents (w w' : World ε τ) : List Event :=
  w'.conversation.events.drop w.conversation.events.length

/-- Between two worlds there were exactly these acts, which account for what changed outside. -/
def World.Does (s : Setting ε τ) (acts : List Act) (w w' : World ε τ) : Prop :=
  ∃ new, w'.conversation.events = w.conversation.events ++ new ∧ s.acts w.outside new = acts ∧
    finalState s.react w.outside new = w'.outside

/-! ### Attempts -/

/-- A call that runs a handshake. -/
structure Attempt where
  destination : String
  request : Coap.Packet
deriving DecidableEq, Repr

def Setting.attempt (s : Setting ε τ) (a : Attempt) (w : World ε τ) :
    Except Error Established × World ε τ :=
  (Handshake.run s a.destination a.request).run.run w

end Session

end SecureCoap
