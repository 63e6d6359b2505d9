import Mathlib.Data.List.Induction
import SecureCoap.Proofs.Session.Failure
import SecureCoap.Proofs.Session.OneShot
import SecureCoap.Proofs.Session.Responder
import SecureCoap.Session.Use

/-!
# Where registered contexts come from

However a transport is used, a destination has a context only because the caller registered it, or
because a handshake with that destination was established with it. In the latter case the final
message of the handshake is gone and the context has protected a request.
-/

namespace SecureCoap

namespace Session

variable {ε τ : Type}

/-! ### Contexts over time -/

namespace EdhocContext

open Oscore (Call)

variable {crypto : Primitives} {e e' e'' : EdhocContext}

/-- What a context may come to be: numbers do not go down, and a message that is gone stays gone. -/
structure Later (e e' : EdhocContext) : Prop where
  pending : e.pending = none → e'.pending = none
  sequenceNumber : e.context.sequenceNumber ≤ e'.context.sequenceNumber

theorem Later.refl (e : EdhocContext) : e.Later e := ⟨id, Nat.le_refl _⟩

theorem Later.trans (h : e.Later e') (h' : e'.Later e'') : e.Later e'' :=
  ⟨fun hnone => h'.pending (h.pending hnone), Nat.le_trans h.sequenceNumber h'.sequenceNumber⟩

theorem later_perform (crypto : Primitives) (call : Call) (e : EdhocContext) :
    e.Later (e.perform crypto call).2 := by
  rw [perform_eq_resultWith]
  constructor
  · intro hnone
    show (if _ then none else e.pending) = none
    rw [hnone, ite_self]
  · show _ ≤ (e.context.perform crypto call).2.sequenceNumber
    rw [Oscore.Context.sequenceNumber_after]
    cases hn : call.number? e.context (e.context.perform crypto call).1 with
    | none => exact Nat.le_refl _
    | some n =>
      obtain ⟨rfl, -, -⟩ := Oscore.Context.sealing_of_number hn
      exact Nat.le_succ _

theorem later_protect (crypto : Primitives) (request : Coap.Packet) (e : EdhocContext) :
    e.Later (e.protect crypto request).2 := later_perform crypto (.protectRequest request) e

end EdhocContext

/-! ### Established handshakes -/

namespace Handshake

variable {s : Setting ε τ} {destination : String} {request : Coap.Packet} {w w' : World ε τ}

/-- After a first request that succeeded, the context has protected it. -/
theorem firstExchange_ok {id : ContextId} {context : EdhocContext} {response : Coap.Packet}
    (h : (firstExchange s destination id context request).run.run w = (.ok response, w'))
    (hid : id < w.transport.contexts.length) :
    w'.transport.context? id = some ⟨context.context.advance, none⟩ := by
  unfold firstExchange at h
  have hclosed := closed_quiet s 0
  rcases hcontext : context.protect s.crypto request with ⟨result, after⟩
  rw [hcontext] at h
  obtain ⟨_, w₁, hset, h₁⟩ := run_bind_ok h
  obtain ⟨message, w₂, hresult, h₂⟩ := run_bind_ok h₁
  obtain ⟨rfl, rfl⟩ := run_result_ok hresult
  obtain ⟨_, w₃, hlog, h₃⟩ := run_bind_ok h₂
  obtain ⟨_, w₄, henter, h₄⟩ := run_bind_ok h₃
  obtain ⟨received, w₅, hexchange, h₅⟩ := run_bind_ok h₄
  rcases hresponse : after.unprotectResponse s.crypto received message.request with ⟨result', last⟩
  rw [hresponse] at h₅
  obtain ⟨_, w₆, hset', h₆⟩ := run_bind_ok h₅
  obtain ⟨-, rfl⟩ := run_result_ok h₆
  rw [onTransport_run] at hset'
  cases hset'
  have hafter : after = ⟨context.context.advance, none⟩ := by
    have hprotected := EdhocContext.after_protect (congrArg Prod.fst hcontext)
    rw [hcontext] at hprotected
    exact hprotected
  have hlast : last = after := (congrArg Prod.snd hresponse).symm
  -- Between the two places where the context is put back, no context changes.
  have hquiet : w.Quiet 0 w₅ :=
    trans_of _ ((setContext_quiet (Nat.zero_le id) _).of_run hset)
      (trans_of _ ((hclosed.forM_log _).of_run hlog)
        (trans_of _ ((enter_quiet 0 _).of_run henter)
          ((hclosed.exchange destination _).of_run hexchange)))
  have hroom : id < w₅.transport.contexts.length := by
    rw [hquiet.length]
    exact hid
  show (w₅.transport.contexts.set id last)[id]? = _
  rw [List.getElem?_set_self hroom, hlast, hafter]

theorem advance_ok {session : Established} {context : EdhocContext}
    (h : (advance s destination request).run.run w = (.ok (session, context), w')) :
    session.context = w.transport.contexts.length ∧ w.Entered destination w' ∧
      w'.transport.context? session.context = some ⟨context.context.advance, none⟩ := by
  rcases advance_cases h with ⟨e, hr, -⟩ | ⟨context', w₁, first, w₂, hquiet, hfirst, hend⟩
  · cases hr
  · cases first with
    | error e => cases hend
    | ok response =>
      cases hend
      have hafter := (firstExchange_quiet s (Nat.le_of_eq hquiet.length.symm) destination context
        request).of_run hfirst
      refine ⟨hquiet.length, (World.entered_afterRegister hquiet).of_quiet hafter,
        firstExchange_ok hfirst ?_⟩
      show _ < (w₁.transport.contexts ++ [context]).length
      rw [List.length_append]
      exact Nat.lt_succ_self _

theorem finish_quiet (n : Nat) (destination : String) (context : EdhocContext) :
    Moves (World.Quiet n) (finish destination context : Step ε τ Unit) :=
  Moves.bind (enter_quiet n _) fun _ => log_quiet n _

theorem run_eq_ok {session : Established}
    (h : (run s destination request).run.run w = (.ok session, w')) :
    ∃ context w₁, (advance s destination request).run.run w = (.ok (session, context), w₁) ∧
      (finish destination context).run.run w₁ = (.ok (), w') := by
  rcases hadvance : (advance s destination request).run.run w with ⟨e | ⟨session', context⟩, w₁⟩
  · rw [run_of_error hadvance] at h
    cases h
  · rw [run_of_ok hadvance] at h
    cases h
    exact ⟨context, w₁, rfl, rfl⟩

/-- A handshake that is established has registered its context, and the context has protected the
first request. -/
theorem finish_ok {session : Established} {context : EdhocContext} {w₁ : World ε τ}
    (hadvance : (advance s destination request).run.run w = (.ok (session, context), w₁))
    (hfinish : (finish destination context).run.run w₁ = (.ok (), w')) :
    session.context = w.transport.contexts.length ∧ w.Entered destination w' ∧
      w'.transport.context? session.context = some ⟨context.context.advance, none⟩ := by
  obtain ⟨hnew, hentered, hready⟩ := advance_ok hadvance
  have hquiet : ∀ n, w₁.Quiet n w' := fun n => (finish_quiet n destination context).of_run hfinish
  refine ⟨hnew, hentered.of_quiet (hquiet _), ?_⟩
  rw [(hquiet (session.context + 1)).contexts _ (Nat.lt_succ_self _), hready]

theorem run_ok {session : Established}
    (h : (run s destination request).run.run w = (.ok session, w')) :
    session.context = w.transport.contexts.length ∧ w.Entered destination w' ∧
      ∃ c : Oscore.Context, w'.transport.context? session.context = some ⟨c.advance, none⟩ := by
  obtain ⟨context, w₁, hadvance, hfinish⟩ := run_eq_ok h
  obtain ⟨hnew, hentered, hready⟩ := finish_ok hadvance hfinish
  exact ⟨hnew, hentered, context.context, hready⟩

end Handshake

namespace Transport

/-! ### A handshake on a transport -/

section

variable {s : Setting ε τ} {engine : ε} {destination : String} {request : Coap.Packet}
  {t : Transport τ}

theorem handshake_of_run {session : Established} {w' : World ε τ}
    (h : (Handshake.run s destination request).run.run (World.fresh engine t) = (.ok session, w')) :
    t.handshake s engine destination request = (.ok session, w'.transport) := by
  unfold handshake
  rw [h]
  rfl

theorem handshake_cases (s : Setting ε τ) (engine : ε) (destination : String)
    (request : Coap.Packet) (t : Transport τ) :
    ∃ w', (t.handshake s engine destination request).2 = w'.transport ∧
      ((∃ e, (t.handshake s engine destination request).1 = .error e) ∧
          ((World.fresh engine t).Quiet t.contexts.length w' ∨
            (World.fresh engine t).Dropped destination w') ∨
        ∃ response, ∃ c : Oscore.Context,
          (t.handshake s engine destination request).1 = .ok ⟨t.contexts.length, response⟩ ∧
          (World.fresh engine t).Entered destination w' ∧
          w'.transport.context? t.contexts.length = some ⟨c.advance, none⟩) := by
  unfold handshake
  rcases hrun : (Handshake.run s destination request).run.run (World.fresh engine t) with
    ⟨e | session, w'⟩
  · exact ⟨w', rfl, Or.inl ⟨⟨e, rfl⟩, Handshake.run_error hrun⟩⟩
  · obtain ⟨hnew, hentered, c, hready⟩ := Handshake.run_ok hrun
    obtain ⟨id, response⟩ := session
    obtain rfl : id = t.contexts.length := hnew
    exact ⟨w', rfl, Or.inr ⟨response, c, rfl, hentered, hready⟩⟩

theorem contextFor?_handshake_of_ne {other : String} (h : other ≠ destination) :
    (t.handshake s engine destination request).2.contextFor? other = t.contextFor? other := by
  obtain ⟨w', hafter, ⟨-, hquiet | hdropped⟩ | ⟨response, c, -, hentered, -⟩⟩ :=
    handshake_cases s engine destination request t
  · rw [hafter]
    exact hquiet.contextFor? other
  · rw [hafter]
    exact hdropped.others other h
  · rw [hafter]
    exact hentered.others other h

theorem context?_handshake {id : ContextId} (h : id < t.contexts.length) :
    (t.handshake s engine destination request).2.context? id = t.context? id := by
  obtain ⟨w', hafter, ⟨-, hquiet | hdropped⟩ | ⟨response, c, -, hentered, -⟩⟩ :=
    handshake_cases s engine destination request t
  · rw [hafter]
    exact hquiet.contexts id h
  · rw [hafter]
    exact hdropped.contexts id h
  · rw [hafter]
    exact hentered.contexts id h

theorem contextFor?_handshake_self {id : ContextId}
    (h : (t.handshake s engine destination request).2.contextFor? destination = some id) :
    t.contextFor? destination = some id ∨
      ∃ response, (t.handshake s engine destination request).1 = .ok ⟨id, response⟩ := by
  obtain ⟨w', hafter, ⟨-, hquiet | hdropped⟩ | ⟨response, c, hok, hentered, -⟩⟩ :=
    handshake_cases s engine destination request t
  · rw [hafter, hquiet.contextFor?] at h
    exact Or.inl h
  · rw [hafter, hdropped.self] at h
    cases h
  · rw [hafter, hentered.self] at h
    cases h
    exact Or.inr ⟨response, hok⟩

theorem context?_of_handshake {id : ContextId} {response : Coap.Packet}
    (h : (t.handshake s engine destination request).1 = .ok ⟨id, response⟩) :
    ∃ c : Oscore.Context, (t.handshake s engine destination request).2.context? id =
      some ⟨c.advance, none⟩ := by
  obtain ⟨w', hafter, ⟨⟨e, herror⟩, -⟩ | ⟨response', c, hok, -, hready⟩⟩ :=
    handshake_cases s engine destination request t
  · rw [herror] at h
    cases h
  · rw [hok] at h
    cases h
    rw [hafter]
    exact ⟨c, hready⟩

end

/-! ### Requests -/

/-- Sending a request protected changes the context that it is protected with, and no entry. -/
theorem sendWith_changes (crypto : Primitives) (link : Link τ) (id : ContextId)
    (context : EdhocContext) (destination : String) (request : Coap.Packet) (t : Transport τ) :
    (t.sendWith crypto link id context destination request).2.contexts =
        t.contexts.set id (context.protect crypto request).2 ∧
      (t.sendWith crypto link id context destination request).2.routes = t.routes := by
  unfold sendWith
  rcases context.protect crypto request with ⟨e | message, after⟩
  · exact ⟨rfl, rfl⟩
  · rcases hsend : link.send destination message.packet (t.setContext id after).link with
      ⟨⟨e | response, delay⟩, state⟩
    · simp only [sendPlain, hsend]
      exact ⟨rfl, rfl⟩
    · simp only [sendPlain, hsend, EdhocContext.after_unprotectResponse]
      exact ⟨List.set_set .., rfl⟩

/-! ### One use -/

/-- All contexts of a transport are there in the other one, maybe later. -/
def Grows (t t' : Transport τ) : Prop :=
  ∀ id context, t.context? id = some context →
    ∃ context', t'.context? id = some context' ∧ context.Later context'

theorem Grows.refl (t : Transport τ) : t.Grows t :=
  fun _ context h => ⟨context, h, .refl context⟩

theorem Grows.trans {t t' t'' : Transport τ} (h : t.Grows t') (h' : t'.Grows t'') :
    t.Grows t'' := by
  intro id context hid
  obtain ⟨context', hid', hlater⟩ := h id context hid
  obtain ⟨context'', hid'', hlater'⟩ := h' id context' hid'
  exact ⟨context'', hid'', hlater.trans hlater'⟩

theorem lt_of_context? {t : Transport τ} {id : ContextId} {context : EdhocContext}
    (h : t.context? id = some context) : id < t.contexts.length :=
  (List.getElem?_eq_some_iff.mp h).1

theorem Grows.of_set {t t' : Transport τ} {id : ContextId} {context context' : EdhocContext}
    (h : t.context? id = some context) (hlater : context.Later context')
    (hcontexts : t'.contexts = t.contexts.set id context') : t.Grows t' := by
  intro other found hfound
  unfold context?
  rw [hcontexts]
  by_cases hsame : id = other
  · subst hsame
    obtain rfl : context = found := Option.some.inj (h.symm.trans hfound)
    exact ⟨context', List.getElem?_set_self (lt_of_context? h), hlater⟩
  · rw [List.getElem?_set_ne hsame]
    exact ⟨found, hfound, .refl found⟩

theorem grows_send (crypto : Primitives) (link : Link τ) (destination : String)
    (request : Coap.Packet) (t : Transport τ) :
    t.Grows (t.send crypto link destination request).2 := by
  unfold send
  cases hfor : (t.contextFor? destination).bind fun id => (t.context? id).map (id, ·) with
  | none => exact .refl t
  | some found =>
    obtain ⟨id, -, hmap⟩ := Option.bind_eq_some_iff.mp hfor
    obtain ⟨context, hcontext, rfl⟩ := Option.map_eq_some_iff.mp hmap
    exact .of_set hcontext (EdhocContext.later_protect crypto request context)
      (sendWith_changes crypto link id context destination request t).1

theorem routes_send (crypto : Primitives) (link : Link τ) (destination : String)
    (request : Coap.Packet) (t : Transport τ) :
    (t.send crypto link destination request).2.routes = t.routes := by
  unfold send
  cases (t.contextFor? destination).bind fun id => (t.context? id).map (id, ·) with
  | none => rfl
  | some found => exact (sendWith_changes crypto link found.1 found.2 destination request t).2

theorem grows_after (t : Transport τ) (u : Use τ) : t.Grows (t.after u) := by
  cases u with
  | create context =>
    intro id found hfound
    exact ⟨found, (List.getElem?_append_left (lt_of_context? hfound)).trans hfound, .refl found⟩
  | call crypto id call =>
    show t.Grows (t.call crypto id call)
    unfold Transport.call
    cases hcontext : t.context? id with
    | none => exact .refl t
    | some context => exact .of_set hcontext (EdhocContext.later_perform crypto call context) rfl
  | register destination id =>
    show t.Grows (if _ then _ else t)
    split
    · exact .refl t
    · exact .refl t
  | forget destination => exact .refl t
  | send crypto link destination request => exact grows_send crypto link destination request t
  | run s engine destination request =>
    intro id found hfound
    exact ⟨found, (context?_handshake (lt_of_context? hfound)).trans hfound, .refl found⟩

/-- A destination has the context that it had before the use, unless the use is a registration or
an established handshake for it. -/
theorem contextFor?_after {t : Transport τ} {u : Use τ} {destination : String} {id : ContextId}
    (h : (t.after u).contextFor? destination = some id) :
    t.contextFor? destination = some id ∨
      (u = .register destination id ∧ id < t.contexts.length) ∨
      ∃ (ε : Type) (s : Setting ε τ) (engine : ε) (request : Coap.Packet) (response : Coap.Packet),
        u = .run s engine destination request ∧
          (t.handshake s engine destination request).1 = .ok ⟨id, response⟩ := by
  cases u with
  | create context => exact Or.inl h
  | call crypto id' call =>
    refine Or.inl (Eq.trans ?_ h)
    show _ = (t.call crypto id' call).contextFor? destination
    unfold Transport.call
    cases t.context? id' with
    | none => rfl
    | some context => rfl
  | register other id' =>
    change (if id' < t.contexts.length then (t.register other id').2 else t).contextFor? _ = _ at h
    split at h
    · next hid =>
      by_cases hsame : destination = other
      · subst hsame
        rw [contextFor?_register_self] at h
        cases h
        exact Or.inr (Or.inl ⟨rfl, hid⟩)
      · rw [contextFor?_register_of_ne _ _ _ hsame] at h
        exact Or.inl h
    · exact Or.inl h
  | forget other =>
    change (t.forget other).2.contextFor? destination = _ at h
    by_cases hsame : destination = other
    · rw [hsame, contextFor?_forget_self] at h
      cases h
    · rw [contextFor?_forget_of_ne _ _ hsame] at h
      exact Or.inl h
  | send crypto link other request =>
    refine Or.inl (Eq.trans ?_ h)
    show _ = (t.send crypto link other request).2.contextFor? destination
    unfold contextFor?
    rw [routes_send]
  | run s engine other request =>
    change (t.handshake s engine other request).2.contextFor? destination = _ at h
    by_cases hsame : destination = other
    · subst hsame
      rcases contextFor?_handshake_self h with hbefore | ⟨response, hok⟩
      · exact Or.inl hbefore
      · exact Or.inr (Or.inr ⟨_, s, engine, request, response, rfl, hok⟩)
    · rw [contextFor?_handshake_of_ne hsame] at h
      exact Or.inl h

/-! ### All uses -/

theorem after_run (s : Setting ε τ) (engine : ε) (destination : String) (request : Coap.Packet)
    (t : Transport τ) :
    t.after (.run s engine destination request) =
      (t.handshake s engine destination request).2 := rfl

theorem after_register {t : Transport τ} {id : ContextId} (h : id < t.contexts.length)
    (destination : String) :
    t.after (.register destination id) = (t.register destination id).2 := if_pos h

theorem afterAll_singleton (t : Transport τ) (u : Use τ) : t.afterAll [u] = t.after u := rfl

theorem afterAll_append (t : Transport τ) (uses uses' : List (Use τ)) :
    t.afterAll (uses ++ uses') = (t.afterAll uses).afterAll uses' := List.foldl_append

theorem grows_afterAll (t : Transport τ) (uses : List (Use τ)) : t.Grows (t.afterAll uses) := by
  induction uses generalizing t with
  | nil => exact .refl t
  | cons u uses ih => exact (grows_after t u).trans (ih (t.after u))

/-- The context of a session can be registered for another destination. -/
theorem afterAll_run_register {s : Setting ε τ} {engine : ε} {destination : String}
    {request : Coap.Packet} {session : Established} {w' : World ε τ} {id : ContextId}
    {t : Transport τ}
    (hrun : (Handshake.run s destination request).run.run (World.fresh engine t) =
      (.ok session, w'))
    (hid : id < w'.transport.contexts.length) (other : String) :
    t.afterAll [.run s engine destination request, .register other id] =
      (w'.transport.register other id).2 := by
  show t.afterAll ([.run s engine destination request] ++ [.register other id]) = _
  rw [afterAll_append, afterAll_singleton, afterAll_singleton, after_run, handshake_of_run hrun]
  exact after_register hid other

/-- The caller registered this context for the destination. -/
def CallerRegistered (t : Transport τ) (uses : List (Use τ)) (destination : String)
    (id : ContextId) : Prop :=
  ∃ before later, uses = before ++ .register destination id :: later ∧
    id < (t.afterAll before).contexts.length

/-- A handshake with the destination gave a session with this context. -/
def HandshakeEstablished (t : Transport τ) (uses : List (Use τ)) (destination : String)
    (id : ContextId) : Prop :=
  ∃ (before later : List (Use τ)) (ε : Type) (s : Setting ε τ) (engine : ε)
    (request response : Coap.Packet),
    uses = before ++ .run s engine destination request :: later ∧
      ((t.afterAll before).handshake s engine destination request).1 = .ok ⟨id, response⟩

variable {t : Transport τ} {uses : List (Use τ)} {destination : String} {id : ContextId}

theorem CallerRegistered.append (h : t.CallerRegistered uses destination id) (u : Use τ) :
    t.CallerRegistered (uses ++ [u]) destination id := by
  obtain ⟨before, later, rfl, hid⟩ := h
  exact ⟨before, later ++ [u], List.append_assoc .., hid⟩

theorem HandshakeEstablished.append (h : t.HandshakeEstablished uses destination id) (u : Use τ) :
    t.HandshakeEstablished (uses ++ [u]) destination id := by
  obtain ⟨before, later, ε, s, engine, request, response, rfl, hok⟩ := h
  exact ⟨before, later ++ [u], ε, s, engine, request, response, List.append_assoc .., hok⟩

theorem entry_origin (t : Transport τ) (uses : List (Use τ))
    (h : (t.afterAll uses).contextFor? destination = some id) :
    t.contextFor? destination = some id ∨ t.CallerRegistered uses destination id ∨
      t.HandshakeEstablished uses destination id := by
  -- The induction is on the last use: it has made the entry, or found it.
  induction uses using List.reverseRecOn with
  | nil => exact Or.inl h
  | append_singleton uses u ih =>
    rw [afterAll_append, afterAll_singleton] at h
    rcases contextFor?_after h with hbefore | ⟨rfl, hid⟩ |
      ⟨ε, s, engine, request, response, rfl, hok⟩
    · rcases ih hbefore with hstart | hregistered | hestablished
      · exact Or.inl hstart
      · exact Or.inr (Or.inl (hregistered.append u))
      · exact Or.inr (Or.inr (hestablished.append u))
    · exact Or.inr (Or.inl ⟨uses, [], rfl, hid⟩)
    · exact Or.inr (Or.inr ⟨uses, [], ε, s, engine, request, response, rfl, hok⟩)

theorem CallerRegistered.context? (h : t.CallerRegistered uses destination id) :
    ∃ context, (t.afterAll uses).context? id = some context := by
  obtain ⟨before, later, rfl, hid⟩ := h
  rw [afterAll_append]
  obtain ⟨context, hcontext, -⟩ :=
    grows_afterAll (t.afterAll before) _ id _ (List.getElem?_eq_getElem hid)
  exact ⟨context, hcontext⟩

/-- The context of a session is ready when the handshake ends, and stays so. -/
theorem HandshakeEstablished.context? (h : t.HandshakeEstablished uses destination id) :
    ∃ context, (t.afterAll uses).context? id = some context ∧ context.pending = none ∧
      1 ≤ context.context.sequenceNumber := by
  obtain ⟨before, later, ε, s, engine, request, response, rfl, hok⟩ := h
  obtain ⟨c, hready⟩ := context?_of_handshake hok
  rw [afterAll_append]
  obtain ⟨context, hcontext, hlater⟩ :=
    grows_afterAll ((t.afterAll before).after (.run s engine destination request)) later id _ hready
  exact ⟨context, hcontext, hlater.pending rfl,
    Nat.le_trans (Nat.succ_le_succ (Nat.zero_le c.sequenceNumber)) hlater.sequenceNumber⟩

/-- However a transport is used from when it is empty, a destination has a context only if the
caller registered that for it, or if a handshake with it was established with that context. The
context of a session has no message to send along and has protected a request. A handshake never
changes the entry of another destination. -/
theorem registered_contexts_established (link : τ) (uses : List (Use τ)) :
    let start := empty link
    let now := start.afterAll uses
    (∀ destination id, now.contextFor? destination = some id →
      (start.CallerRegistered uses destination id ∨
        start.HandshakeEstablished uses destination id) ∧
      ∃ context, now.context? id = some context ∧
        (start.HandshakeEstablished uses destination id →
          context.pending = none ∧ 1 ≤ context.context.sequenceNumber)) ∧
    ∀ (ε : Type) (s : Setting ε τ) (engine : ε) (destination : String) (request : Coap.Packet)
      (other : String), other ≠ destination →
        (now.handshake s engine destination request).2.contextFor? other =
          now.contextFor? other := by
  intro start now
  constructor
  · intro destination id hentry
    rcases entry_origin start uses hentry with hstart | horigin
    · cases hstart
    · refine ⟨horigin, ?_⟩
      by_cases hestablished : start.HandshakeEstablished uses destination id
      · obtain ⟨context, hcontext, hready⟩ := hestablished.context?
        exact ⟨context, hcontext, fun _ => hready⟩
      · obtain ⟨context, hcontext⟩ := (horigin.resolve_right hestablished).context?
        exact ⟨context, hcontext, fun h => absurd h hestablished⟩
  · intro ε s engine destination request other hother
    exact contextFor?_handshake_of_ne hother

/-- A handshake that is established, after which the caller registers its context elsewhere too. -/
theorem registered_contexts_established_testVector :
    let uses : List (Use Unit) :=
      [.run vectorSetting () "peer" Oscore.Context.shortRequest, .register "other" 0]
    let now := (empty ()).afterAll uses
    now.contextFor? "peer" = some 0 ∧ now.contextFor? "other" = some 0 ∧
      (empty ()).HandshakeEstablished uses "peer" 0 ∧
      ∃ context, now.context? 0 = some context ∧ context.pending = none ∧
        1 ≤ context.context.sequenceNumber := by
  intro uses now
  obtain ⟨-, ⟨id, response⟩, -, w', -, -, hrun, -⟩ := Handshake.run_vectorSetting "peer"
    Oscore.Context.protectable_shortRequest (by decide) (World.fresh () (empty ()))
  obtain ⟨hnew, hentered, -⟩ := Handshake.run_ok hrun
  obtain rfl : id = 0 := hnew
  have hroom : 0 < w'.transport.contexts.length := by
    rw [hentered.length]
    exact Nat.succ_pos _
  have hnow : now = (w'.transport.register "other" 0).2 := afterAll_run_register hrun hroom "other"
  have hpeer : now.contextFor? "peer" = some 0 := by
    rw [hnow, contextFor?_register_of_ne _ _ _ (by decide)]
    exact hentered.self
  have hother : now.contextFor? "other" = some 0 := by
    rw [hnow]
    exact contextFor?_register_self _ _ _
  have hestablished : (empty ()).HandshakeEstablished uses "peer" 0 :=
    ⟨[], [.register "other" 0], Unit, vectorSetting, (), Oscore.Context.shortRequest, response, rfl,
      congrArg Prod.fst (handshake_of_run hrun)⟩
  obtain ⟨hentries, -⟩ := registered_contexts_established () uses
  obtain ⟨-, context, hcontext, hready⟩ := hentries "peer" 0 hpeer
  exact ⟨hpeer, hother, hestablished, context, hcontext, hready hestablished⟩

end Transport

end Session

end SecureCoap
