import SecureCoap.Proofs.Session.Piggyback

/-!
# Sending and receiving side by side

Messages that are sent take sequence numbers and the final message, and messages that are received
move the replay window. Neither looks at what the other changes, so it does not matter how the calls
for the one and the other are interleaved.
-/

namespace SecureCoap

namespace Session

namespace EdhocContext

open Oscore (Call Context ReplayWindow)

variable {crypto : Primitives}

/-! ### The two halves of a context -/

def withWindow (e : EdhocContext) (w : ReplayWindow) : EdhocContext :=
  { e with context := { e.context with window := w } }

def withSending (e : EdhocContext) (n : Nat) (pending : Option Bytes) : EdhocContext :=
  ⟨{ e.context with sequenceNumber := n }, pending⟩

theorem after_of_protects (crypto : Primitives) {call : Call} (h : call.protects = true)
    (e : EdhocContext) :
    ∃ n pending, (e.perform crypto call).2 = e.withSending n pending := by
  obtain ⟨n, hn⟩ := Context.after_of_protects crypto h e.context
  rw [perform_eq_resultWith, hn]
  exact ⟨n, _, rfl⟩

theorem after_of_unprotects (crypto : Primitives) {call : Call} (h : call.protects = false)
    (e : EdhocContext) :
    ∃ w, (e.perform crypto call).2 = e.withWindow w := by
  obtain ⟨w, hw⟩ := Context.after_of_unprotects crypto h e.context
  have hsends : ∀ result : Except Oscore.Error Oscore.Outcome, sends call result = false := by
    intro result
    cases call with
    | protectRequest m => cases h
    | _ => rfl
  rw [perform_eq_resultWith, hw, hsends]
  exact ⟨w, rfl⟩

theorem perform_withWindow {call : Call} (h : call.protects = true) (e : EdhocContext)
    (w : ReplayWindow) :
    (e.withWindow w).perform crypto call =
      (e.perform crypto call).map id fun e' => e'.withWindow w := by
  rw [perform_eq_resultWith, perform_eq_resultWith]
  unfold withWindow
  rw [Context.perform_with_window h]
  rfl

/-- Receiving does not look at the final message either. -/
theorem perform_withSending {call : Call} (h : call.protects = false) (e : EdhocContext) (n : Nat)
    (pending : Option Bytes) :
    (e.withSending n pending).perform crypto call =
      (e.perform crypto call).map id fun e' => e'.withSending n pending := by
  rw [perform_eq_resultWith, perform_eq_resultWith]
  unfold withSending
  rw [Context.perform_with_sequenceNumber h]
  cases call with
  | protectRequest m => cases h
  | unprotectRequest packet => rfl
  | protectResponse m id reusePiv => cases h
  | unprotectResponse packet id => rfl

/-! ### Interleavings -/

theorem swap_protects {call other : Call} (hcall : call.protects = true)
    (hother : other.protects = false) (e : EdhocContext) :
    ((e.perform crypto other).2.perform crypto call).1 = (e.perform crypto call).1 ∧
      ((e.perform crypto call).2.perform crypto other).1 = (e.perform crypto other).1 ∧
      ((e.perform crypto other).2.perform crypto call).2 =
        ((e.perform crypto call).2.perform crypto other).2 := by
  obtain ⟨n, pending, hsent⟩ := after_of_protects crypto hcall e
  obtain ⟨w, hreceived⟩ := after_of_unprotects crypto hother e
  have hlater : (e.withWindow w).perform crypto call =
      ((e.perform crypto call).1, (e.withSending n pending).withWindow w) := by
    rw [perform_withWindow hcall, ← hsent]
    rfl
  have hlater' : (e.withSending n pending).perform crypto other =
      ((e.perform crypto other).1, (e.withWindow w).withSending n pending) := by
    rw [perform_withSending hother, ← hreceived]
    rfl
  rw [hsent, hreceived, hlater, hlater']
  exact ⟨rfl, rfl, rfl⟩

theorem independent_protects (crypto : Primitives) :
    Independent (perform crypto) Call.protects where
  result call other e hne := by
    cases hcall : call.protects with
    | true => exact (swap_protects hcall (by simpa [hcall] using hne.symm) e).1
    | false => exact (swap_protects (by simpa [hcall] using hne.symm) hcall e).2.1
  state call other e hne := by
    cases hcall : call.protects with
    | true => exact (swap_protects hcall (by simpa [hcall] using hne.symm) e).2.2
    | false => exact (swap_protects (by simpa [hcall] using hne.symm) hcall e).2.2.symm

/-- However the calls that send and those that receive are interleaved, each gives what it gives if
all of the former are made first and then all of the latter, or the other way around, and the same
context is left. Sending never changes the window, and receiving neither the sequence number nor
the final message. -/
theorem sending_and_receiving_apart (crypto : Primitives) (e : EdhocContext) (calls : List Call) :
    let sending := calls.filter Call.protects
    let receiving := calls.filter (!Call.protects ·)
    let outcomes := SecureCoap.outcomes (perform crypto) e
    outcomes (sending ++ receiving) =
        (outcomes calls).filter (·.1.protects) ++ (outcomes calls).filter (!·.1.protects) ∧
      outcomes (receiving ++ sending) =
        (outcomes calls).filter (!·.1.protects) ++ (outcomes calls).filter (·.1.protects) ∧
      e.after crypto (sending ++ receiving) = e.after crypto calls ∧
      e.after crypto (receiving ++ sending) = e.after crypto calls ∧
      ∀ (e' : EdhocContext) (call : Call),
        if call.protects then (e'.perform crypto call).2.context.window = e'.context.window
        else (e'.perform crypto call).2.context.sequenceNumber = e'.context.sequenceNumber ∧
          (e'.perform crypto call).2.pending = e'.pending := by
  intro sending receiving outcomes
  have h := independent_protects crypto
  -- Which of the two kinds comes first does not matter for what is independent.
  refine ⟨h.outcomes_sorted e calls, ?_, h.finalState_filter e calls, ?_, ?_⟩
  · simpa using h.not.outcomes_sorted e calls
  · simpa [after] using h.not.finalState_filter e calls
  · intro e' call
    split
    · next hcall =>
      obtain ⟨n, pending, hsent⟩ := after_of_protects crypto hcall e'
      rw [hsent]
      rfl
    · next hcall =>
      obtain ⟨w, hreceived⟩ := after_of_unprotects crypto
        (Bool.eq_false_iff.mpr hcall) e'
      rw [hreceived]
      exact ⟨rfl, rfl⟩

end EdhocContext

end Session

end SecureCoap
