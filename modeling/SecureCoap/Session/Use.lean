import SecureCoap.Session.Handshake

/-!
# Uses of a transport

What is done with a transport over time, as a list: the caller makes contexts and calls them,
registers them for destinations and forgets destinations, sends requests, and runs new handshakes.
Each use may bring its own cryptography, and each handshake its own engine.
-/

namespace SecureCoap

namespace Session

/-- A use of a transport. -/
inductive Use (τ : Type) : Type 1 where
  | create (context : EdhocContext)
  | call (crypto : Primitives) (id : ContextId) (call : Oscore.Call)
  | register (destination : String) (id : ContextId)
  | forget (destination : String)
  | send (crypto : Primitives) (link : Link τ) (destination : String) (request : Coap.Packet)
  | run {ε : Type} (s : Setting ε τ) (engine : ε) (destination : String) (request : Coap.Packet)

namespace Transport

variable {τ : Type}

/-- The transport over a link, without contexts. -/
def empty (link : τ) : Transport τ := ⟨link, [], []⟩

/-- Runs a new handshake with an engine. -/
def handshake {ε : Type} (s : Setting ε τ) (engine : ε) (destination : String)
    (request : Coap.Packet) (t : Transport τ) : Except Error Established × Transport τ :=
  ((Handshake.run s destination request).run.run (World.fresh engine t)).map id World.transport

/-- Nothing comes of a name that no context has. -/
def call (crypto : Primitives) (id : ContextId) (call : Oscore.Call) (t : Transport τ) :
    Transport τ :=
  match t.context? id with
  | some context => t.setContext id (context.perform crypto call).2
  | none => t

def after (t : Transport τ) : Use τ → Transport τ
  | .create context => (t.addContext context).2
  | .call crypto id call => t.call crypto id call
  | .register destination id =>
    if id < t.contexts.length then (t.register destination id).2 else t
  | .forget destination => (t.forget destination).2
  | .send crypto link destination request => (t.send crypto link destination request).2
  | .run s engine destination request => (t.handshake s engine destination request).2

/-- The transport after uses one after another. -/
def afterAll (t : Transport τ) (uses : List (Use τ)) : Transport τ := uses.foldl after t

end Transport

end Session

end SecureCoap
