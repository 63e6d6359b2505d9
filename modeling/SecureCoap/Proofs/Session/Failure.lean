import SecureCoap.Proofs.Session.Derivation
import SecureCoap.Proofs.Session.Steps
import SecureCoap.Proofs.Session.Transport

/-!
# What a failed handshake leaves behind

Up to the registration of its context, a handshake leaves the contexts of all destinations alone.
After that, a failure removes the entry of the destination: it does not come back what was there
before. Other destinations keep their contexts in any case.
-/

namespace SecureCoap

namespace Session

open Edhoc (ConnectionId Engine)

variable {ε τ : Type}

/-! ### Conversations without registrations -/

/-- The events of a conversation go on, and none of the new ones is a registration. -/
def Conversation.Continues (c c' : Conversation ε) : Prop :=
  ∃ new, c'.events = c.events ++ new ∧ ∀ d id, Event.registered d id ∉ new

namespace Conversation.Continues

theorem refl (c : Conversation ε) : c.Continues c :=
  ⟨[], (List.append_nil _).symm, fun _ _ h => by cases h⟩

theorem trans {c₁ c₂ c₃ : Conversation ε} (h₁ : c₁.Continues c₂) (h₂ : c₂.Continues c₃) :
    c₁.Continues c₃ := by
  obtain ⟨new₁, heq₁, hnone₁⟩ := h₁
  obtain ⟨new₂, heq₂, hnone₂⟩ := h₂
  refine ⟨new₁ ++ new₂, ?_, ?_⟩
  · rw [heq₂, heq₁, List.append_assoc]
  · intro d id hmem
    rcases List.mem_append.mp hmem with h | h
    · exact hnone₁ d id h
    · exact hnone₂ d id h

end Conversation.Continues

instance : IsPreorder (Conversation ε) Conversation.Continues where
  refl := Conversation.Continues.refl
  trans _ _ _ := Conversation.Continues.trans

/-! ### Worlds without registrations -/

/-- No destination is given another context, none of the first `n` contexts changes, and no
registration is recorded. -/
structure World.Quiet (n : Nat) (w w' : World ε τ) : Prop where
  conversation : w.conversation.Continues w'.conversation
  routes : w'.transport.routes = w.transport.routes
  length : w'.transport.contexts.length = w.transport.contexts.length
  contexts : ∀ id < n, w'.transport.context? id = w.transport.context? id

instance (n : Nat) : IsPreorder (World ε τ) (World.Quiet n) where
  refl _ := ⟨refl_of _ _, rfl, rfl, fun _ _ => rfl⟩
  trans _ _ _ h₁ h₂ := by
    refine ⟨trans_of _ h₁.conversation h₂.conversation, ?_, ?_, ?_⟩
    · rw [h₂.routes, h₁.routes]
    · rw [h₂.length, h₁.length]
    · intro id hid
      rw [h₂.contexts id hid, h₁.contexts id hid]

/-- What happens is quiet if it is not a registration and changes nothing of the transport but the
link. -/
theorem World.quiet_of_event {n : Nat} {w : World ε τ} {event : Event}
    (h : ∀ d id, event ≠ .registered d id) (engine : ε) (phase : Phase) (link : τ) :
    w.Quiet n ⟨⟨engine, w.conversation.events ++ [event]⟩, phase, { w.transport with link }⟩ := by
  refine ⟨⟨[event], rfl, ?_⟩, rfl, rfl, fun _ _ => rfl⟩
  intro d id hmem
  exact h d id (List.mem_singleton.mp hmem).symm

namespace Handshake

theorem log_quiet (n : Nat) (entry : LogEntry) :
    Moves (World.Quiet n) (log entry : Step ε τ Unit) :=
  fun w => World.quiet_of_event (fun _ _ h => by cases h) w.conversation.engine w.phase
    w.transport.link

theorem enter_quiet (n : Nat) (phase : Phase) :
    Moves (World.Quiet n) (enter phase : Step ε τ Unit) :=
  fun w => World.quiet_of_event (fun _ _ h => by cases h) w.conversation.engine phase
    w.transport.link

theorem abort_quiet (n : Nat) (destination : String) (e : Error) :
    Moves (World.Quiet n) (abort destination e : Step ε τ Unit) :=
  fun w => World.quiet_of_event (fun _ _ h => by cases h) w.conversation.engine .aborted
    w.transport.link

/-- What changes no context is quiet. -/
theorem closed_quiet (s : Setting ε τ) (n : Nat) :
    Closed s fun α (m : Step ε τ α) => Moves (World.Quiet n) m where
  pure := Moves.pure
  throw := Moves.throw
  bind := Moves.bind
  look _ hf := Moves.bind (fun w => refl_of (World.Quiet n) w) hf
  log := log_quiet n
  enter := enter_quiet n
  talkAsk query failed := by
    intro w
    rw [talk_run, Talk.ask_run]
    exact World.quiet_of_event (fun _ _ h => by cases h) _ w.phase w.transport.link
  exchange destination packet := by
    intro w
    rw [exchange_run]
    exact World.quiet_of_event (fun _ _ h => by cases h) w.conversation.engine w.phase _

theorem setContext_quiet {n : Nat} {id : ContextId} (h : n ≤ id) (context : EdhocContext) :
    Moves (World.Quiet n)
      (onTransport fun t => ((), t.setContext id context) : Step ε τ Unit) := by
  intro w
  rw [onTransport_run]
  refine ⟨refl_of _ _, rfl, List.length_set, ?_⟩
  intro other hother
  show (w.transport.contexts.set id context)[other]? = w.transport.contexts[other]?
  rw [List.getElem?_set_ne (by omega)]

end Handshake

/-! ### Registrations -/

/-- A new context was registered for a destination, and other destinations and contexts are as they
were. -/
structure World.Entered (destination : String) (w w' : World ε τ) : Prop where
  self : w'.transport.contextFor? destination = some w.transport.contexts.length
  length : w'.transport.contexts.length = w.transport.contexts.length + 1
  others : ∀ other, other ≠ destination →
    w'.transport.contextFor? other = w.transport.contextFor? other
  contexts : ∀ id < w.transport.contexts.length, w'.transport.context? id = w.transport.context? id

/-- A context was registered for a destination, and its entry removed afterwards. -/
structure World.Dropped (destination : String) (w w' : World ε τ) : Prop where
  events : ∃ new, w'.conversation.events = w.conversation.events ++ new ∧
    ∃ id, Event.registered destination id ∈ new
  self : w'.transport.contextFor? destination = none
  others : ∀ other, other ≠ destination →
    w'.transport.contextFor? other = w.transport.contextFor? other
  contexts : ∀ id < w.transport.contexts.length, w'.transport.context? id = w.transport.context? id

namespace World

variable {destination : String} {n : Nat} {w w₁ w₂ w' : World ε τ}

theorem Quiet.contextFor? (h : w.Quiet n w') (destination : String) :
    w'.transport.contextFor? destination = w.transport.contextFor? destination := by
  unfold Transport.contextFor?
  rw [h.routes]

theorem Entered.of_quiet (h : w.Entered destination w₁)
    (hquiet : w₁.Quiet w.transport.contexts.length w') : w.Entered destination w' := by
  refine ⟨?_, ?_, ?_, ?_⟩
  · rw [hquiet.contextFor?, h.self]
  · rw [hquiet.length, h.length]
  · intro other hother
    rw [hquiet.contextFor?, h.others other hother]
  · intro id hid
    rw [hquiet.contexts id hid, h.contexts id hid]

theorem Dropped.of_quiet (h : w.Dropped destination w₁)
    (hquiet : w₁.Quiet w.transport.contexts.length w') : w.Dropped destination w' := by
  obtain ⟨new, hnew, id, hid⟩ := h.events
  obtain ⟨later, hlater, -⟩ := hquiet.conversation
  refine ⟨⟨new ++ later, ?_, id, List.mem_append_left later hid⟩, ?_, ?_, ?_⟩
  · rw [hlater, hnew, List.append_assoc]
  · rw [hquiet.contextFor?, h.self]
  · intro other hother
    rw [hquiet.contextFor?, h.others other hother]
  · intro id hid
    rw [hquiet.contexts id hid, h.contexts id hid]

/-- All contexts after a registration are those before and the new one. -/
theorem Entered.contexts_eq {e : EdhocContext} (h : w.Entered destination w')
    (hnew : w'.transport.context? w.transport.contexts.length = some e) :
    w'.transport.contexts = w.transport.contexts ++ [e] := by
  apply List.ext_getElem?
  intro id
  rcases Nat.lt_trichotomy id w.transport.contexts.length with hlt | rfl | hgt
  · rw [List.getElem?_append_left hlt]
    exact h.contexts id hlt
  · rw [List.getElem?_concat_length]
    exact hnew
  · have hlength := h.length
    rw [List.getElem?_eq_none (by omega), List.getElem?_eq_none (by simp; omega)]

theorem entered_afterRegister {context : EdhocContext}
    (h : w.Quiet w.transport.contexts.length w₁) :
    w.Entered destination (Handshake.afterRegister destination context w₁) := by
  refine ⟨?_, ?_, ?_, ?_⟩
  · rw [← h.length]
    exact Transport.contextFor?_register_self _ destination _
  · show (w₁.transport.contexts ++ [context]).length = _
    rw [List.length_append, h.length]
    rfl
  · intro other hother
    show (Transport.register _ _ _).2.contextFor? other = _
    rw [Transport.contextFor?_register_of_ne _ _ _ hother, ← h.contextFor?]
    rfl
  · intro id hid
    have hbefore : id < w₁.transport.contexts.length := by
      rw [h.length]
      exact hid
    have hadded : (Handshake.afterRegister destination context w₁).transport.context? id
        = w₁.transport.context? id := List.getElem?_append_left hbefore
    rw [hadded, h.contexts id hid]

theorem dropped_of_forget {context : EdhocContext}
    (h₁ : w.Quiet w.transport.contexts.length w₁)
    (h₂ : (Handshake.afterRegister destination context w₁).Quiet w.transport.contexts.length w₂) :
    w.Dropped destination (Handshake.afterForget destination w₂) := by
  obtain ⟨new₁, hnew₁, -⟩ := h₁.conversation
  obtain ⟨new₂, hnew₂, -⟩ := h₂.conversation
  have hentered := (entered_afterRegister h₁).of_quiet h₂
  refine ⟨⟨new₁ ++ [.logged (.contextRegistered destination context.senderId),
    .registered destination w₁.transport.contexts.length] ++ new₂ ++ [.forgotten destination],
    ?_, w₁.transport.contexts.length, ?_⟩, ?_, ?_, hentered.contexts⟩
  · show w₂.conversation.events ++ _ = _
    rw [hnew₂]
    show w₁.conversation.events ++ _ ++ _ ++ _ ++ _ = _
    rw [hnew₁]
    simp only [List.append_assoc, List.cons_append, List.nil_append]
  · simp
  · exact Transport.contextFor?_forget_self _ _
  · intro other hother
    show (w₂.transport.forget destination).2.contextFor? other = _
    rw [Transport.contextFor?_forget_of_ne _ _ hother, hentered.others other hother]

end World

/-! ### How a handshake goes -/

namespace Handshake

variable {s : Setting ε τ} {destination : String} {request : Coap.Packet} {w w' : World ε τ}
  {e : Error}

/-- All of a handshake before the registration. -/
def prepare (s : Setting ε τ) (destination : String) : Step ε τ EdhocContext := do
  let second ← greet s destination
  authenticate s second
  agree s second

theorem prepare_quiet (s : Setting ε τ) (n : Nat) (destination : String) :
    Moves (World.Quiet n) (prepare s destination) := by
  have hclosed := closed_quiet s n
  refine Moves.bind (hclosed.greet destination) fun second => ?_
  exact Moves.bind (hclosed.authenticate second) fun _ => hclosed.agree second

theorem advance_eq_prepare (s : Setting ε τ) (destination : String) (request : Coap.Packet) :
    advance s destination request = (do
      let context ← prepare s destination
      let id ← register destination context
      let response ← tryCatch (firstExchange s destination id context request) fun e => do
        forget destination
        throw e
      return (⟨id, response⟩, context)) := by
  simp only [advance, prepare, bind_assoc]

/-- Once a context is registered, a handshake ends as its first request does. If that fails, the
destination is forgotten. -/
theorem advance_of_prepare {w₁ : World ε τ} {context : EdhocContext}
    (h : (prepare s destination).run.run w = (.ok context, w₁)) :
    (advance s destination request).run.run w =
      match (firstExchange s destination w₁.transport.contexts.length context request).run.run
        (afterRegister destination context w₁) with
      | (.ok response, w₂) => (.ok (⟨w₁.transport.contexts.length, response⟩, context), w₂)
      | (.error e, w₂) => (.error e, afterForget destination w₂) := by
  rw [advance_eq_prepare, run_bind_eq, h]
  dsimp only
  rw [run_bind_eq, register_run]
  dsimp only
  rw [run_bind_eq, run_tryCatch_eq]
  rcases (firstExchange s destination w₁.transport.contexts.length context request).run.run
    (afterRegister destination context w₁) with ⟨e | response, w₂⟩
  · rfl
  · rfl

/-- A handshake fails before anything is registered, or else it registers a context. -/
theorem advance_cases {r : Except Error (Established × EdhocContext)}
    (h : (advance s destination request).run.run w = (r, w')) :
    (∃ e, r = .error e ∧ w.Quiet w.transport.contexts.length w') ∨
      ∃ context w₁ first w₂, w.Quiet w.transport.contexts.length w₁ ∧
        (firstExchange s destination w₁.transport.contexts.length context request).run.run
          (afterRegister destination context w₁) = (first, w₂) ∧
        (r, w') = match first with
          | .ok response => (.ok (⟨w₁.transport.contexts.length, response⟩, context), w₂)
          | .error e => (.error e, afterForget destination w₂) := by
  rcases hprepare : (prepare s destination).run.run w with ⟨e | context, w₁⟩
  · rw [advance_eq_prepare, run_bind_eq, hprepare] at h
    cases h
    exact Or.inl ⟨e, rfl, (prepare_quiet s _ destination).of_run hprepare⟩
  · have hquiet := (prepare_quiet s w.transport.contexts.length destination).of_run hprepare
    rw [advance_of_prepare hprepare] at h
    rcases hfirst : (firstExchange s destination w₁.transport.contexts.length context
      request).run.run (afterRegister destination context w₁) with ⟨first, w₂⟩
    refine Or.inr ⟨context, w₁, first, w₂, hquiet, hfirst, ?_⟩
    rw [hfirst] at h
    cases first with
    | error e => exact h.symm
    | ok response => exact h.symm

theorem firstExchange_quiet (s : Setting ε τ) {n : Nat} {id : ContextId} (h : n ≤ id)
    (destination : String) (context : EdhocContext) (request : Coap.Packet) :
    Moves (World.Quiet n) (firstExchange s destination id context request) :=
  (closed_quiet s n).firstExchange (setContext_quiet h) destination context request

/-! ### Failures -/

/-- What a handshake that fails in its course leaves behind: all as it was, if no context was
registered; otherwise the destination has no context any more. -/
theorem advance_error (h : (advance s destination request).run.run w = (.error e, w')) :
    w.Quiet w.transport.contexts.length w' ∨ w.Dropped destination w' := by
  rcases advance_cases h with ⟨-, -, hquiet⟩ | ⟨context, w₁, first, w₂, hquiet, hfirst, hend⟩
  · exact Or.inl hquiet
  · cases first with
    | ok response => cases hend
    | error e' =>
      cases hend
      exact Or.inr (World.dropped_of_forget hquiet
        ((firstExchange_quiet s (Nat.le_of_eq hquiet.length.symm) destination context
          request).of_run hfirst))

theorem run_error (h : (run s destination request).run.run w = (.error e, w')) :
    w.Quiet w.transport.contexts.length w' ∨ w.Dropped destination w' := by
  rcases hadvance : (advance s destination request).run.run w with ⟨e' | ⟨session, context⟩, w₁⟩
  · rw [run_of_error hadvance] at h
    cases h
    have habort := abort_quiet w.transport.contexts.length destination e w₁
    rcases advance_error hadvance with hquiet | hdropped
    · exact Or.inl (trans_of _ hquiet habort)
    · exact Or.inr (hdropped.of_quiet habort)
  · rw [run_of_ok hadvance] at h
    cases h

end Handshake

/-- After a handshake that failed, other destinations have the contexts that they had, and no
context that was there before has changed. The destination of the handshake has the context that it
had before exactly if it had none or if no context was registered for it meanwhile; otherwise it
has none. -/
theorem Handshake.failed_run {s : Setting ε τ} {destination : String} {request : Coap.Packet}
    {w w' : World ε τ} {e : Error}
    (h : (run s destination request).run.run w = (.error e, w')) :
    (∀ other, other ≠ destination →
      w'.transport.contextFor? other = w.transport.contextFor? other) ∧
    (∀ id < w.transport.contexts.length,
      w'.transport.context? id = w.transport.context? id) ∧
    (w'.transport.contextFor? destination = w.transport.contextFor? destination ↔
      w.transport.contextFor? destination = none ∨
        ∀ id, Event.registered destination id ∉ w.newEvents w') ∧
    ((∃ id, Event.registered destination id ∈ w.newEvents w') →
      w'.transport.contextFor? destination = none) := by
  rcases run_error h with hquiet | hdropped
  · obtain ⟨new, hnew, hnone⟩ := hquiet.conversation
    rw [World.newEvents_eq hnew]
    refine ⟨fun other _ => hquiet.contextFor? other, hquiet.contexts, ?_, ?_⟩
    · exact iff_of_true (hquiet.contextFor? destination) (Or.inr (hnone destination))
    · intro h
      obtain ⟨id, hid⟩ := h
      exact absurd hid (hnone destination id)
  · obtain ⟨new, hnew, id, hid⟩ := hdropped.events
    rw [World.newEvents_eq hnew]
    refine ⟨hdropped.others, hdropped.contexts, ?_, fun _ => hdropped.self⟩
    rw [hdropped.self]
    constructor
    · intro hsame
      exact Or.inl hsame.symm
    · intro h
      rcases h with hbefore | hnone
      · exact hbefore.symm
      · exact absurd hid (hnone id)

/-! ### A failure after the registration -/

def fixedLink (response : Coap.Packet) : Link Unit where
  send _ _ state := (⟨.ok response, 0⟩, state)

/-- A setting in which the responder is trusted, and nothing fails before the first request. -/
def fixedSetting : Setting Unit Unit where
  crypto := .standard
  engine := fixedEngine ⟨.int 1, [0xF6], none⟩
  link := fixedLink (Coap.Packet.ofCode (.response .changed))
  registry := ⟨[([0xF6], ⟨[0xF6], none⟩)]⟩
  config := .standard

def observing : Coap.Packet :=
  { Coap.Packet.ofCode (.request .get) with
    options := Coap.Options.empty.add Coap.Options.observe [] }

def established (e : EdhocContext) : Transport Unit := ⟨(), [e], [("peer", 0)]⟩

namespace Handshake

/-- Observations are not supported. -/
theorem firstExchange_observing {context : EdhocContext} (h : context.context.sequenceNumber = 0)
    (id : ContextId) (w : World Unit Unit) :
    ∃ w', (firstExchange fixedSetting "peer" id context observing).run.run w =
      (.error (.oscore (.unsupportedOption .observe)), w') := by
  obtain ⟨context, pending⟩ := context
  cases context
  cases h
  exact ⟨_, rfl⟩

theorem run_observing (e : EdhocContext) :
    ∃ w', (run fixedSetting "peer" observing).run.run (World.fresh () (established e)) =
      (.error (.oscore (.unsupportedOption .observe)), w') ∧
      w'.transport.contextFor? "peer" = none := by
  obtain ⟨context, w₁, hprepare, hnumber⟩ : ∃ context w₁, (prepare fixedSetting "peer").run.run
      (World.fresh () (established e)) = (.ok context, w₁) ∧ context.context.sequenceNumber = 0 :=
    ⟨_, _, rfl, rfl⟩
  obtain ⟨w₂, hfirst⟩ := firstExchange_observing hnumber w₁.transport.contexts.length
    (afterRegister "peer" context w₁)
  have hadvance : (advance fixedSetting "peer" observing).run.run
      (World.fresh () (established e)) =
        (.error (.oscore (.unsupportedOption .observe)), afterForget "peer" w₂) := by
    rw [advance_of_prepare hprepare, hfirst]
  exact ⟨_, run_of_error hadvance, Transport.contextFor?_forget_self w₂.transport "peer"⟩

end Handshake

theorem Handshake.failed_run_observing :
    ∃ e w', ((derive .standard (fixedEngine ⟨.int 1, [], none⟩) none (.int 0) (.int 1)).run.run
        ⟨(), []⟩).1 = .ok e ∧
      (run fixedSetting "peer" observing).run.run (World.fresh () (established e)) =
        (.error (.oscore (.unsupportedOption .observe)), w') ∧
      (∀ other, other ≠ "peer" →
        w'.transport.contextFor? other = (established e).contextFor? other) ∧
      (∀ id < 1, w'.transport.context? id = (established e).context? id) ∧
      (w'.transport.contextFor? "peer" = (established e).contextFor? "peer" ↔
        (established e).contextFor? "peer" = none ∨
          ∀ id, Event.registered "peer" id ∉
            (World.fresh () (established e)).newEvents w') ∧
      ((∃ id, Event.registered "peer" id ∈ (World.fresh () (established e)).newEvents w') →
        w'.transport.contextFor? "peer" = none) := by
  obtain ⟨e, he⟩ := derive_fixedEngine
  obtain ⟨w', hrun, -⟩ := run_observing e
  exact ⟨e, w', he, hrun, failed_run hrun⟩

/-- A destination that had a context has none after a handshake whose first request failed. -/
theorem Handshake.failed_run_drops_context :
    ∃ e w', ((derive .standard (fixedEngine ⟨.int 1, [], none⟩) none (.int 0) (.int 1)).run.run
        ⟨(), []⟩).1 = .ok e ∧
      (run fixedSetting "peer" observing).run.run (World.fresh () (established e)) =
        (.error (.oscore (.unsupportedOption .observe)), w') ∧
      (established e).contextFor? "peer" = some 0 ∧
      w'.transport.contextFor? "peer" = none := by
  obtain ⟨e, he⟩ := derive_fixedEngine
  obtain ⟨w', hrun, hnone⟩ := run_observing e
  exact ⟨e, w', he, hrun, rfl, hnone⟩

end Session

end SecureCoap
