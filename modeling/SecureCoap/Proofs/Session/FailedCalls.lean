import SecureCoap.Proofs.Oscore.RoundTrip
import SecureCoap.Proofs.Session.OneShot

/-!
# Failed calls

A call on a context that fails, at whatever point, takes no sequence number, marks no request as
received and leaves the final message where it is. So a history without its failed calls is the
history of the calls that are left.
-/

namespace SecureCoap

open Oscore (Call Context Outcome)

variable {crypto : Primitives}

namespace Session

namespace EdhocContext

/-! ### One call -/

theorem sends_of_not_isOk {ε : Type} {result : Except ε Outcome} (h : result.isOk = false)
    (call : Call) : sends call result = false := by
  cases call with
  | protectRequest m => exact h
  | _ => rfl

theorem after_of_not_isOk {e : EdhocContext} {call : Call}
    (h : (e.perform crypto call).1.isOk = false) : (e.perform crypto call).2 = e := by
  have hinside : (e.context.perform crypto call).1.isOk = false := by
    rw [← isOk_eq (perform_eq crypto call e).1]
    exact h
  rw [perform_eq_resultWith, Context.after_of_not_isOk hinside, sends_of_not_isOk hinside]
  rfl

/-! ### All calls -/

/-- The steps of a history whose calls succeeded. -/
def succeeding (crypto : Primitives) (e : EdhocContext) (calls : List Call) :
    List (Step EdhocContext Call) :=
  (e.history crypto calls).filter fun s => (s.result (perform crypto)).isOk

/-- Whatever was done with a context before, a call that fails leaves it as it is. If all calls that
failed are deleted from a history, those that are left find the same contexts as before, so they
give the same, and the last one leaves the same context. -/
theorem failed_calls_leave_no_trace (crypto : Primitives) (e : EdhocContext) (calls : List Call) :
    (∀ call error, ((e.after crypto calls).perform crypto call).1 = .error error →
      ((e.after crypto calls).perform crypto call).2 = e.after crypto calls) ∧
    e.history crypto ((succeeding crypto e calls).map Step.call) = succeeding crypto e calls ∧
    e.after crypto ((succeeding crypto e calls).map Step.call) = e.after crypto calls := by
  constructor
  · intro call error herror
    apply after_of_not_isOk
    rw [herror]
    rfl
  · have hidle : ∀ s : Step EdhocContext Call, (s.result (perform crypto)).isOk = false →
        s.after (perform crypto) = s.before := fun s hs => after_of_not_isOk hs
    exact history_filter hidle e calls

/-- A short request with an option that is not supported. -/
def unsupportedRequest : Coap.Packet :=
  { Context.shortRequest with options := Coap.Options.empty.add Coap.Options.observe [] }

theorem perform_unsupportedRequest (crypto : Primitives) (e : EdhocContext) :
    ∃ error, e.perform crypto (.protectRequest unsupportedRequest) = (.error error, e) := by
  have hrefused : (e.perform crypto (.protectRequest unsupportedRequest)).1.isOk = false := by
    rw [isOk_eq (perform_eq crypto _ e).1, Context.perform_protectRequest, isOk_map,
      Bool.eq_false_iff]
    intro hok
    obtain ⟨⟨packet, id⟩, hseal⟩ := isOk_iff.mp hok
    obtain ⟨s, ciphertext, hs, -, -⟩ := Context.sealRequest_eq_ok.mp hseal
    obtain ⟨-, -, hsealing⟩ := Context.requestSealing_eq_ok.mp hs
    exact absurd (Context.sealing_eq_ok.mp hsealing).1 (by decide)
  have hafter := after_of_not_isOk hrefused
  rcases hrun : e.perform crypto (.protectRequest unsupportedRequest) with ⟨error | o, e'⟩
  · rw [hrun] at hafter
    exact ⟨error, congrArg (Prod.mk _) hafter⟩
  · rw [hrun] at hrefused
    cases hrefused

theorem perform_shortRequest (hencrypts : crypto.EncryptsUpTo Coap.maxPacketLength)
    {e : EdhocContext} (hnumber : e.context.sequenceNumber ≤ Oscore.PartialIv.maxNumber) :
    ∃ o, e.perform crypto (.protectRequest Context.shortRequest) =
      (.ok o, ⟨e.context.advance, none⟩) := by
  obtain ⟨packet, id, ho⟩ := Context.perform_protectRequest_of_protectable hencrypts
    Context.protectable_shortRequest hnumber
  rw [perform_eq_resultWith, ho]
  exact ⟨_, rfl⟩

/-- Of a request with an option that is not supported, a short request, and a received one without
protection, only the second counts. -/
theorem failed_calls_leave_no_trace_testVector :
    ∃ c, Context.derive Oscore.TestVector.crypto Oscore.TestVector.client = .ok c ∧
      let e : EdhocContext := ⟨c, some [0x40]⟩
      let calls : List Call := [.protectRequest unsupportedRequest,
        .protectRequest Context.shortRequest, .unprotectRequest Context.shortRequest]
      (e.history Oscore.TestVector.crypto calls).map
          (fun s => (s.result (perform Oscore.TestVector.crypto)).isOk) = [false, true, false] ∧
        (e.perform Oscore.TestVector.crypto (.protectRequest unsupportedRequest)).2 = e ∧
        e.history Oscore.TestVector.crypto [.protectRequest Context.shortRequest] =
          succeeding Oscore.TestVector.crypto e calls ∧
        e.after Oscore.TestVector.crypto [.protectRequest Context.shortRequest] =
          e.after Oscore.TestVector.crypto calls := by
  obtain ⟨c, -, hc, -, -⟩ := Oscore.TestVector.derive_client
  refine ⟨c, hc, ?_⟩
  intro e calls
  have hnumber : c.sequenceNumber ≤ Oscore.PartialIv.maxNumber := by
    rw [Context.sequenceNumber_of_derive hc]
    exact Nat.zero_le _
  obtain ⟨error, hfirst⟩ := perform_unsupportedRequest Oscore.TestVector.crypto e
  obtain ⟨o, hsecond⟩ := perform_shortRequest (e := e)
    (Oscore.TestVector.encryptsUpTo.mono (by decide)) hnumber
  have hthird : (⟨c.advance, none⟩ : EdhocContext).perform Oscore.TestVector.crypto
      (.unprotectRequest Context.shortRequest) =
        (.error (.oscore .noOption), ⟨c.advance, none⟩) := rfl
  have hsteps : e.history Oscore.TestVector.crypto calls =
      [⟨e, .protectRequest unsupportedRequest⟩, ⟨e, .protectRequest Context.shortRequest⟩,
        ⟨⟨c.advance, none⟩, .unprotectRequest Context.shortRequest⟩] := by
    unfold history
    rw [history_cons, history_cons, history_cons, history_nil, hfirst, hsecond]
  have hresults : (e.history Oscore.TestVector.crypto calls).map
      (fun s => (s.result (perform Oscore.TestVector.crypto)).isOk) = [false, true, false] := by
    rw [hsteps]
    simp only [List.map_cons, List.map_nil, Step.result, hfirst, hsecond, hthird]
    rfl
  have hkept : succeeding Oscore.TestVector.crypto e calls =
      [⟨e, .protectRequest Context.shortRequest⟩] := by
    unfold succeeding
    rw [hsteps]
    simp only [List.filter_cons, List.filter_nil, Step.result, hfirst, hsecond, hthird]
    rfl
  obtain ⟨hidle, -, -⟩ := failed_calls_leave_no_trace Oscore.TestVector.crypto e []
  obtain ⟨-, hhistory, hafter⟩ := failed_calls_leave_no_trace Oscore.TestVector.crypto e calls
  rw [hkept] at hhistory hafter
  refine ⟨hresults, hidle _ error (congrArg Prod.fst hfirst), ?_, hafter⟩
  rw [hkept]
  exact hhistory

end EdhocContext

end Session

end SecureCoap
