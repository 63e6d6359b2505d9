import SecureCoap.Proofs.Oscore.NonceUniqueness
import SecureCoap.Session.Piggyback

/-!
# The context inside

A context of a session does with each call what the security context inside of it does: it succeeds
on the same calls, for the same requests, and leaves the same security context.
-/

namespace SecureCoap

namespace Session

namespace EdhocContext

open Oscore (Call Context Outcome)

variable {crypto : Primitives}

/-! ### One call -/

/-- The request as it goes out while this message waits. -/
def carrying (pending : Option Bytes) (request : Coap.Packet) : Coap.Packet :=
  match pending with
  | some message => combine message request
  | none => request

/-- The result of a call while this message waits, where the security context has this result. -/
def resultWith (pending : Option Bytes) (call : Call) (result : Except Oscore.Error Outcome) :
    Except Error Outcome :=
  match call with
  | .protectRequest _ =>
    (result.map fun o => { o with packet := carrying pending o.packet }).mapError .oscore
  | _ => result.mapError .oscore

/-- Whether a call with this result protects a request. -/
def sends {ε : Type} (call : Call) (result : Except ε Outcome) : Bool :=
  match call with
  | .protectRequest _ => result.isOk
  | _ => false

theorem protect_eq (m : Coap.Packet) (e : EdhocContext) :
    e.protect crypto m =
      (((e.context.protectRequest crypto m).1.map fun r =>
          (⟨carrying e.pending r.1, r.2, e.pending⟩ : Protected)).mapError .oscore,
        ⟨(e.context.protectRequest crypto m).2,
          if (e.context.protectRequest crypto m).1.isOk then none else e.pending⟩) := by
  obtain ⟨context, pending⟩ := e
  unfold protect
  rcases context.protectRequest crypto m with ⟨error | ⟨packet, id⟩, after⟩
  · rfl
  · cases pending with
    | none => rfl
    | some message => rfl

theorem after_protect {e : EdhocContext} {request : Coap.Packet} {message : Protected}
    (h : (e.protect crypto request).1 = .ok message) :
    (e.protect crypto request).2 = ⟨e.context.advance, none⟩ := by
  rw [protect_eq] at h ⊢
  obtain ⟨⟨packet, id⟩, hprotect, -⟩ := map_eq_ok.mp (mapError_eq_ok.mp h)
  have hseal := Context.protectRequest_eq_ok.mp hprotect
  rw [Context.protectRequest_of_seal hseal]
  rfl

theorem after_unprotectResponse (crypto : Primitives) (response : Coap.Packet)
    (request : Oscore.RequestId) (e : EdhocContext) :
    (e.unprotectResponse crypto response request).2 = e := rfl

theorem lift_eq {α : Type} (step : Context → Except Oscore.Error α × Context) (f : α → Outcome)
    (e : EdhocContext) :
    (lift step e).map (Except.map f) id =
      (((step e.context).1.map f).mapError .oscore, ⟨(step e.context).2, e.pending⟩) := by
  unfold lift
  rcases step e.context with ⟨error | a, context⟩
  · rfl
  · rfl

/-- A call does what the security context inside does with it. Only protecting a request makes use
of the message that waits. -/
theorem perform_eq_resultWith (call : Call) (e : EdhocContext) :
    e.perform crypto call =
      (resultWith e.pending call (e.context.perform crypto call).1,
        ⟨(e.context.perform crypto call).2,
          if sends call (e.context.perform crypto call).1 then none else e.pending⟩) := by
  cases call with
  | protectRequest m =>
    show (e.protect crypto m).map (Except.map _) id =
      (resultWith _ _ ((e.context.protectRequest crypto m).1.map Outcome.request),
        ⟨(e.context.protectRequest crypto m).2,
          if ((e.context.protectRequest crypto m).1.map Outcome.request).isOk then none
          else e.pending⟩)
    rw [protect_eq]
    rcases e.context.protectRequest crypto m with ⟨error | ⟨packet, id⟩, context⟩
    · rfl
    · rfl
  | unprotectRequest packet => exact lift_eq (Context.unprotectRequest crypto packet) .request e
  | protectResponse m id reusePiv =>
    exact lift_eq (Context.protectResponse crypto m id reusePiv) .response e
  | unprotectResponse packet id =>
    exact lift_eq (Context.unprotectResponse crypto packet id) .response e

theorem payload_carrying (pending : Option Bytes) (request : Coap.Packet) :
    (carrying pending request).payload = pending.getD [] ++ request.payload := by
  cases pending with
  | none => rfl
  | some message => rfl

/-- A message that waits is put in front of what the security context gives, if anywhere. -/
theorem of_resultWith_eq_ok {pending : Option Bytes} {call : Call}
    {result : Except Oscore.Error Outcome} {o : Outcome}
    (h : resultWith pending call result = .ok o) :
    ∃ o', result = .ok o' ∧ o'.packet.payload <:+ o.packet.payload := by
  cases result with
  | error e =>
    cases call with
    | _ => cases h
  | ok o' =>
    refine ⟨o', rfl, ?_⟩
    cases call with
    | protectRequest m =>
      cases h
      exact ⟨_, (payload_carrying pending o'.packet).symm⟩
    | _ =>
      cases h
      exact List.suffix_rfl

def requestOf {ε : Type} (result : Except ε Outcome) : Option (Option Oscore.RequestId) :=
  result.toOption.map (·.id)

theorem requestOf_resultWith (pending : Option Bytes) (call : Call)
    (result : Except Oscore.Error Outcome) :
    requestOf (resultWith pending call result) = requestOf result := by
  cases call with
  | protectRequest m =>
    cases result with
    | error e => rfl
    | ok o => rfl
  | _ =>
    cases result with
    | error e => rfl
    | ok o => rfl

theorem perform_eq (crypto : Primitives) (call : Call) (e : EdhocContext) :
    requestOf (e.perform crypto call).1 = requestOf (e.context.perform crypto call).1 ∧
      (e.perform crypto call).2.context = (e.context.perform crypto call).2 := by
  rw [perform_eq_resultWith]
  exact ⟨requestOf_resultWith e.pending call _, rfl⟩

section

variable {ε ε' : Type} {r : Except ε Outcome} {r' : Except ε' Outcome}

theorem isOk_eq (h : requestOf r = requestOf r') : r.isOk = r'.isOk := by
  cases r with
  | error e =>
    cases r' with
    | error e' => rfl
    | ok o' => cases h
  | ok o =>
    cases r' with
    | error e' => cases h
    | ok o' => rfl

theorem accepted?_eq (h : requestOf r = requestOf r') (call : Call) :
    call.accepted? r = call.accepted? r' := by
  have hbind : r.toOption.bind (·.id) = r'.toOption.bind (·.id) := by
    cases r with
    | error e =>
      cases r' with
      | error e' => rfl
      | ok o' => cases h
    | ok o =>
      cases r' with
      | error e' => cases h
      | ok o' => exact Option.some.inj h
  cases call with
  | unprotectRequest packet => exact hbind
  | protectRequest m => rfl
  | protectResponse m id reusePiv => rfl
  | unprotectResponse packet id => rfl

end

/-! ### All calls -/

def view (s : Step EdhocContext Call) : Step Context Call := s.view context

theorem view_history (e : EdhocContext) (calls : List Call) :
    (e.history crypto calls).map view = e.context.history crypto calls :=
  history_view context (fun call e => (perform_eq crypto call e).2) e calls

/-- What is gathered from the steps of a history may be gathered from those of the context. -/
theorem filterMap_history {β : Type} {f : Step EdhocContext Call → Option β}
    {g : Step Context Call → Option β} (h : ∀ s, f s = g (view s)) (e : EdhocContext)
    (calls : List Call) :
    (e.history crypto calls).filterMap f = (e.context.history crypto calls).filterMap g := by
  rw [← view_history, List.filterMap_map]
  apply List.filterMap_congr
  intro s _
  exact h s

end EdhocContext

end Session

end SecureCoap
