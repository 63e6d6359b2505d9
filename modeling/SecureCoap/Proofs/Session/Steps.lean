import SecureCoap.Proofs.Session.Derivation
import SecureCoap.Proofs.Session.Transport
import SecureCoap.Session.Transcript

/-!
# Steps of a handshake

What an elementary step gives and what it leaves behind, as equations, and how what holds of
elementary steps comes to hold of the steps that are made of them.
-/

namespace SecureCoap

namespace Session

open Edhoc (Engine)

variable {ε τ : Type}

theorem World.newEvents_eq {w w' : World ε τ} {new : List Event}
    (h : w'.conversation.events = w.conversation.events ++ new) : w.newEvents w' = new := by
  rw [newEvents, h, List.drop_left]

namespace Handshake

/-! ### Conversations -/

theorem talk_run {α : Type} (part : Talk ε α) (w : World ε τ) :
    (talk part).run.run w =
      ((part.run.run w.conversation).1,
        { w with conversation := (part.run.run w.conversation).2 }) := by
  rcases h : part.run.run w.conversation with ⟨e | a, conversation⟩
  · simp only [talk, run_bind_eq, run_get, h]
    rfl
  · simp only [talk, run_bind_eq, run_get, h]
    rfl

/-- A conversation goes on in parts. -/
theorem talk_bind {α β : Type} (part : Talk ε α) (next : α → Talk ε β) :
    (talk (part >>= next) : Step ε τ β) = talk part >>= fun a => talk (next a) := by
  have hruns : ∀ w, (talk (part >>= next) : Step ε τ β).run.run w =
      (talk part >>= fun a => talk (next a) : Step ε τ β).run.run w := by
    intro w
    rw [run_bind_eq, talk_run, talk_run, run_bind_eq]
    rcases part.run.run w.conversation with ⟨e | a, conversation⟩
    · rfl
    · exact (talk_run (next a) { w with conversation }).symm
  exact funext hruns

/-! ### Transport -/

theorem onTransport_run {α : Type} (change : Transport τ → α × Transport τ) (w : World ε τ) :
    (onTransport change).run.run w =
      (.ok (change w.transport).1, { w with transport := (change w.transport).2 }) := rfl

theorem exchange_run (s : Setting ε τ) (destination : String) (packet : Coap.Packet)
    (w : World ε τ) :
    (exchange s destination packet).run.run w =
      (((w.transport.sendPlain s.link destination packet).1.within s.config.timeout).mapError
          .transport,
        { w with
          conversation := { w.conversation with
            events := w.conversation.events ++ [.sent destination packet] }
          transport := (w.transport.sendPlain s.link destination packet).2 }) := by
  have hrecord : (record (.sent destination packet) : Step ε τ Unit).run.run w =
      (.ok (), { w with conversation := { w.conversation with
        events := w.conversation.events ++ [.sent destination packet] } }) := rfl
  unfold exchange
  simp only [run_bind_eq, hrecord, onTransport_run]
  cases (w.transport.sendPlain s.link destination packet).1.within s.config.timeout with
  | error e => rfl
  | ok response => rfl

def afterRegister (destination : String) (context : EdhocContext) (w : World ε τ) : World ε τ :=
  { w with
    conversation := ⟨w.conversation.engine, w.conversation.events
      ++ [.logged (.contextRegistered destination context.senderId)]
      ++ [.registered destination w.transport.contexts.length]⟩
    transport := ((w.transport.addContext context).2.register destination
      w.transport.contexts.length).2 }

def afterForget (destination : String) (w : World ε τ) : World ε τ :=
  { w with
    conversation := ⟨w.conversation.engine, w.conversation.events ++ [.forgotten destination]⟩
    transport := (w.transport.forget destination).2 }

theorem register_run (destination : String) (context : EdhocContext) (w : World ε τ) :
    (register destination context).run.run w =
      (.ok w.transport.contexts.length, afterRegister destination context w) := by
  have hlog : (Transport.register destination (Transport.addContext context w.transport).1
      (Transport.addContext context w.transport).2).1.log =
        [.contextRegistered destination context.senderId] :=
    Transport.log_register_addContext w.transport destination context
  unfold register
  simp only [run_bind_eq, onTransport_run, hlog]
  rfl

/-! ### The end of a handshake -/

/-- What a handshake that is established does at its end. -/
def finish (destination : String) (context : EdhocContext) : Step ε τ Unit := do
  enter .established
  log (.established destination context.senderId context.recipientId)

section

variable {s : Setting ε τ} {destination : String} {request : Coap.Packet} {w w₁ : World ε τ}

theorem run_of_ok {session : Established} {context : EdhocContext}
    (h : (advance s destination request).run.run w = (.ok (session, context), w₁)) :
    (run s destination request).run.run w =
      (.ok session, ((finish destination context).run.run w₁).2) := by
  unfold run
  rw [run_bind_eq, run_tryCatch_eq, h]
  rfl

theorem run_of_error {e : Error}
    (h : (advance s destination request).run.run w = (.error e, w₁)) :
    (run s destination request).run.run w =
      (.error e, ((abort destination e).run.run w₁).2) := by
  unfold run
  rw [run_bind_eq, run_tryCatch_eq, h]
  rfl

end

/-! ### Steps made of others -/

/-- A property of steps that elementary steps other than those that change contexts have, and that
steps one after another have. When a step looks at the conversation, it has to be enough that it
sees the state of the engine. -/
structure Closed (s : Setting ε τ) (P : (α : Type) → Step ε τ α → Prop) : Prop where
  pure {α : Type} (a : α) : P α (Pure.pure a)
  throw {α : Type} (e : Error) : P α (MonadExcept.throw e)
  bind {α β : Type} {m : Step ε τ α} {f : α → Step ε τ β} :
    P α m → (∀ a, P β (f a)) → P β (m >>= f)
  look {α : Type} {f : Conversation ε → Step ε τ α} :
    (∀ c c', c.engine = c'.engine → f c = f c') → (∀ c, P α (f c)) →
    P α (talk MonadState.get >>= f)
  log (entry : LogEntry) : P Unit (log entry)
  enter (phase : Phase) : P Unit (enter phase)
  talkAsk (query : Edhoc.Query) (failed : Edhoc.Error → Error) :
    P query.Reply (talk (Talk.ask s.engine query failed))
  exchange (destination : String) (packet : Coap.Packet) :
    P Coap.Packet (exchange s destination packet)

namespace Closed

variable {s : Setting ε τ} {P : (α : Type) → Step ε τ α → Prop}

theorem result {α : Type} (h : Closed s P) (r : Except Error α) : P α (monadLift r) := by
  cases r with
  | error e => exact h.throw e
  | ok a => exact h.pure a

theorem talkResult {α : Type} (h : Closed s P) (r : Except Error α) :
    P α (talk (monadLift r)) := by
  cases r with
  | error e => exact h.throw e
  | ok a => exact h.pure a

theorem forM_log (h : Closed s P) (entries : List LogEntry) :
    P Unit (entries.forM Handshake.log) := by
  induction entries with
  | nil => exact h.pure ()
  | cons entry entries ih => exact h.bind (h.log entry) fun _ => ih

theorem greet (h : Closed s P) (destination : String) :
    P Edhoc.SecondMessage (greet s destination) := by
  refine h.bind (h.talkAsk (.firstMessage _) _) fun message => ?_
  refine h.bind (h.enter _) fun _ => ?_
  refine h.bind (h.exchange _ _) fun response => ?_
  cases Edhoc.failOnErrorMessage response.payload with
  | error e => exact h.throw _
  | ok u =>
    refine h.bind (h.talkAsk (.secondMessage _) _) fun second => ?_
    exact h.bind (h.enter _) fun _ => h.pure _

theorem checkEad (h : Closed s P) (ead : Option Edhoc.EadItem) : P Unit (checkEad ead) := by
  cases ead with
  | none => exact h.pure _
  | some item =>
    unfold Handshake.checkEad
    by_cases hcritical : item.isCritical = true
    · simp only [hcritical, if_true]
      exact h.throw _
    · simp only [hcritical]
      exact h.log _

theorem authenticate (h : Closed s P) (second : Edhoc.SecondMessage) :
    P Unit (authenticate s second) := by
  refine h.bind (h.checkEad second.ead) fun _ => ?_
  cases s.registry.lookup? second.credentialId with
  | none => exact h.throw _
  | some peer => exact h.bind (h.talkAsk (.verifyPeer ..) _) fun _ => h.enter _

theorem derive (h : Closed s P) (pending : Option Bytes) (ours theirs : Edhoc.ConnectionId) :
    P EdhocContext (talk (derive s.crypto s.engine pending ours theirs)) := by
  unfold Session.derive
  simp only [talk_bind]
  refine h.look (fun c c' hsame => by simp only [hsame]) fun c => ?_
  refine h.bind (h.talkResult _) fun (aead, hash) => ?_
  refine h.bind (h.talkAsk _ _) fun secret => ?_
  refine h.bind (h.talkAsk _ _) fun salt => ?_
  refine h.bind (h.talkResult _) fun p => ?_
  refine h.bind (h.log _) fun _ => ?_
  refine h.bind (h.talkResult _) fun context => ?_
  exact h.talkResult (.ok _)

theorem agree (h : Closed s P) (second : Edhoc.SecondMessage) :
    P EdhocContext (agree s second) := by
  refine h.bind (h.talkAsk (.finalMessage _) _) fun message => ?_
  refine h.bind (h.derive _ _ _) fun context => ?_
  exact h.bind (h.enter _) fun _ => h.pure _

/-- The first request changes no context but the one that it is sent with. -/
theorem firstExchange (h : Closed s P) {id : ContextId}
    (hset : ∀ context, P Unit (onTransport fun t => ((), t.setContext id context)))
    (destination : String) (context : EdhocContext) (request : Coap.Packet) :
    P Coap.Packet (firstExchange s destination id context request) := by
  unfold Handshake.firstExchange
  rcases context.protect s.crypto request with ⟨result, context⟩
  refine h.bind (hset _) fun _ => ?_
  refine h.bind (h.result _) fun message => ?_
  refine h.bind (h.forM_log _) fun _ => ?_
  refine h.bind (h.enter _) fun _ => ?_
  refine h.bind (h.exchange _ _) fun response => ?_
  rcases context.unprotectResponse s.crypto response message.request with ⟨result, context⟩
  exact h.bind (hset _) fun _ => h.result _

end Closed

end Handshake

end Session

end SecureCoap
