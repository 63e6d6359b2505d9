import SecureCoap.Proofs.Coap.Options
import SecureCoap.Proofs.Session.Piggyback

/-!
# Once and no more

The final message goes along with the first request that is protected, however many calls fail or do
something else before that. In every other call, a context of a session gives what the security
context inside of it gives.
-/

namespace SecureCoap

namespace Session

/-! ### What it takes to carry a message -/

/-- The request `q` is `p` with a message in front of its payload, and with one more value, an empty
one, of the option that marks it. -/
structure Carries (message : Bytes) (p q : Coap.Packet) : Prop where
  version : q.version = p.version
  type : q.type = p.type
  code : q.code = p.code
  messageId : q.messageId = p.messageId
  token : q.token = p.token
  marker : q.options.values? Coap.Options.edhoc = some (p.options.values Coap.Options.edhoc ++ [[]])
  others : ∀ n, n ≠ Coap.Options.edhoc → q.options.values? n = p.options.values? n
  payload : q.payload = message ++ p.payload

theorem carries_combine (message : Bytes) (p : Coap.Packet) :
    Carries message p (combine message p) where
  version := rfl
  type := rfl
  code := rfl
  messageId := rfl
  token := rfl
  marker := Coap.Options.values?_add_self p.options Coap.Options.edhoc []
  others _ hn := Coap.Options.values?_add_of_ne p.options hn []
  payload := rfl

namespace EdhocContext

open Oscore (Call Context Outcome)

variable {crypto : Primitives}

/-! ### When the message is gone -/

/-- Whether one of these calls protects a request. -/
def spent (crypto : Primitives) (c : Context) (calls : List Call) : Bool :=
  (c.history crypto calls).any fun s => sends s.call (s.result (Context.perform crypto))

theorem spent_cons (c : Context) (call : Call) (calls : List Call) :
    spent crypto c (call :: calls) =
      (sends call (c.perform crypto call).1 || spent crypto (c.perform crypto call).2 calls) := rfl

/-- The security context inside goes its own way, and the message waits for the first request. -/
theorem after_eq (c : Context) (pending : Option Bytes) (calls : List Call) :
    (⟨c, pending⟩ : EdhocContext).after crypto calls =
      ⟨c.after crypto calls, if spent crypto c calls then none else pending⟩ := by
  induction calls generalizing c pending with
  | nil => rfl
  | cons call calls ih =>
    show ((⟨c, pending⟩ : EdhocContext).perform crypto call).2.after crypto calls = _
    rw [perform_eq_resultWith, ih, spent_cons]
    cases sends call (c.perform crypto call).1 with
    | true =>
      rw [Bool.true_or, if_pos rfl, ite_self]
      rfl
    | false => rfl

/-! ### What calls give -/

theorem resultWith_none (call : Call) (result : Except Oscore.Error Outcome) :
    resultWith none call result = result.mapError .oscore := by
  cases call with
  | protectRequest m =>
    cases result with
    | error e => rfl
    | ok o => rfl
  | _ => rfl

theorem resultWith_of_not_sends (pending : Option Bytes) {call : Call}
    {result : Except Oscore.Error Outcome} (h : sends call result = false) :
    resultWith pending call result = result.mapError .oscore := by
  cases call with
  | protectRequest m =>
    cases result with
    | error e => rfl
    | ok o => cases h
  | _ => rfl

theorem resultWith_of_sends (message : Bytes) {c : Context} {call : Call}
    (h : sends call (c.perform crypto call).1 = true) :
    ∃ packet id, (c.perform crypto call).1 = .ok ⟨packet, some id⟩ ∧
      resultWith (some message) call (c.perform crypto call).1 =
        .ok ⟨combine message packet, some id⟩ := by
  cases call with
  | protectRequest m =>
    obtain ⟨o, ho⟩ := isOk_iff.mp h
    obtain ⟨⟨packet, id⟩, -, rfl⟩ := map_eq_ok.mp ho
    refine ⟨packet, id, ho, ?_⟩
    rw [ho]
    rfl
  | unprotectRequest packet => cases h
  | protectResponse m id reusePiv => cases h
  | unprotectResponse packet id => cases h

theorem result_after (c : Context) (pending : Option Bytes) (before : List Call) (call : Call) :
    (((⟨c, pending⟩ : EdhocContext).after crypto before).perform crypto call).1 =
      resultWith (if spent crypto c before then none else pending) call
        ((c.after crypto before).perform crypto call).1 := by
  rw [after_eq, perform_eq_resultWith]

/-- A context with a message to send gives in each call what the security context gives, but for the
first request that is protected: that one carries the message. The message waits until then. Without
a message there is no exception. -/
theorem same_but_once (crypto : Primitives) (c : Context) (message : Bytes) (before : List Call)
    (call : Call) :
    ((⟨c, some message⟩ : EdhocContext).after crypto before).pending.isSome =
        !spent crypto c before ∧
      (if spent crypto c before = false ∧
          sends call ((c.after crypto before).perform crypto call).1 = true then
        ∃ packet packet' id,
          ((c.after crypto before).perform crypto call).1 = .ok ⟨packet, some id⟩ ∧
          (((⟨c, some message⟩ : EdhocContext).after crypto before).perform crypto call).1 =
            .ok ⟨packet', some id⟩ ∧
          Carries message packet packet'
      else
        (((⟨c, some message⟩ : EdhocContext).after crypto before).perform crypto call).1 =
          ((c.after crypto before).perform crypto call).1.mapError .oscore) ∧
      ((⟨c, none⟩ : EdhocContext).after crypto before).pending = none ∧
      (((⟨c, none⟩ : EdhocContext).after crypto before).perform crypto call).1 =
        ((c.after crypto before).perform crypto call).1.mapError .oscore := by
  refine ⟨?_, ?_, ?_, ?_⟩
  · rw [after_eq]
    cases spent crypto c before with
    | true => rfl
    | false => rfl
  · rw [result_after]
    split
    · next h =>
      obtain ⟨hspent, hsends⟩ := h
      obtain ⟨packet, id, hplain, hresult⟩ := resultWith_of_sends message hsends
      rw [hspent]
      exact ⟨packet, combine message packet, id, hplain, hresult, carries_combine message packet⟩
    · next h =>
      -- Either the message is gone, or this call is not one that takes it along.
      cases hspent : spent crypto c before with
      | true => exact resultWith_none call _
      | false =>
        have hsends : sends call ((c.after crypto before).perform crypto call).1 = false := by
          rw [Bool.eq_false_iff]
          intro hsends
          exact h ⟨hspent, hsends⟩
        exact resultWith_of_not_sends (some message) hsends
  · rw [after_eq, ite_self]
  · rw [result_after, ite_self]
    exact resultWith_none call _

end EdhocContext

end Session

end SecureCoap
