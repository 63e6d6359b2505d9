import SecureCoap.Proofs.Oscore.EmptyEntries
import SecureCoap.Session.Piggyback

/-!
# Options that were cleared

A carried message is taken from a packet by the values of its options, so an option that was cleared
is as good as absent there. For protecting and unprotecting that holds of all options but those that
are not supported.
-/

namespace SecureCoap

namespace Session

open Oscore

variable {p q : Coap.Packet}

/-! ### Carried messages -/

/-- The same failure, or the same message carried by packets that agree but for entries without
values. -/
inductive SplitAlike :
    Except Error (Option Bytes × Coap.Packet) → Except Error (Option Bytes × Coap.Packet) →
      Prop where
  | error (e : Error) : SplitAlike (.error e) (.error e)
  | ok (message : Option Bytes) {r r' : Coap.Packet} :
    r.SameAs r' → SplitAlike (.ok (message, r)) (.ok (message, r'))

theorem splitCombined_alike (h : p.SameAs q) : SplitAlike (splitCombined p) (splitCombined q) := by
  have hhas : p.options.has Coap.Options.edhoc = q.options.has Coap.Options.edhoc := by
    unfold Coap.Options.has
    rw [h.values]
  unfold splitCombined
  rw [hhas, h.payload]
  split
  · cases Cbor.byteStringLength q.payload with
    | error e => exact .error (.cbor e)
    | ok n =>
      exact .ok _
        { version := h.version
          type := h.type
          code := h.code
          messageId := h.messageId
          token := h.token
          values := by
            intro number
            show (p.options.clear Coap.Options.edhoc).values number =
              (q.options.clear Coap.Options.edhoc).values number
            rw [Coap.Options.values_clear, Coap.Options.values_clear, h.values]
          payload := rfl }
  · exact .ok none h

/-- Two packets that agree but for entries without values are interchangeable, in whatever state a
context is, exactly if the same option is found unsupported in them, or none in either. A carried
message is taken from both alike in any case. -/
theorem empty_entries_absent_iff (crypto : Primitives) (ctx : Context) (h : p.SameAs q) :
    (Interchangeable crypto ctx p q ↔ checkOptions p.options = checkOptions q.options) ∧
      SplitAlike (splitCombined p) (splitCombined q) := by
  refine ⟨⟨checkOptions_eq_of_interchangeable, ?_⟩, splitCombined_alike h⟩
  intro hcheck
  exact interchangeable_of_checkOptions_eq crypto ctx hcheck h

/-! ### An option that was added and cleared again -/

def withEmptyEntry (p : Coap.Packet) (number : Nat) : Coap.Packet :=
  { p with options := (p.options.add number []).clear number }

theorem sameAs_withEmptyEntry {number : Nat} (h : p.options.values number = []) :
    p.SameAs (withEmptyEntry p number) where
  version := rfl
  type := rfl
  code := rfl
  messageId := rfl
  token := rfl
  values := by
    intro n
    show p.options.values n = ((p.options.add number []).clear number).values n
    rw [Coap.Options.values_clear]
    split
    · next heq => rw [heq, h]
    · next hne =>
      unfold Coap.Options.values
      rw [Coap.Options.values?_add_of_ne _ hne]
  payload := rfl

/-- A short request may as well have an entry for its path, but not one for an option that is not
supported. -/
theorem empty_entries_absent_iff_shortRequest :
    let p := withEmptyEntry Context.shortRequest Coap.Options.uriPath
    let q := withEmptyEntry Context.shortRequest Coap.Options.observe
    Context.shortRequest.SameAs p ∧ Context.shortRequest.SameAs q ∧
      ∃ a, Context.derive TestVector.crypto TestVector.client = .ok a ∧
        Interchangeable TestVector.crypto a Context.shortRequest p ∧
        ¬Interchangeable TestVector.crypto a Context.shortRequest q ∧
        SplitAlike (splitCombined Context.shortRequest) (splitCombined p) ∧
        SplitAlike (splitCombined Context.shortRequest) (splitCombined q) := by
  intro p q
  have hp : Context.shortRequest.SameAs p := sameAs_withEmptyEntry rfl
  have hq : Context.shortRequest.SameAs q := sameAs_withEmptyEntry rfl
  obtain ⟨a, -, ha, -, -⟩ := TestVector.derive_client
  obtain ⟨hpath, hsplit⟩ := empty_entries_absent_iff TestVector.crypto a hp
  obtain ⟨hobserve, hsplit'⟩ := empty_entries_absent_iff TestVector.crypto a hq
  have hdiffer : ¬checkOptions Context.shortRequest.options = checkOptions q.options := by decide
  exact ⟨hp, hq, a, ha, hpath.mpr (by decide), fun h => hdiffer (hobserve.mp h), hsplit, hsplit'⟩

/-- A short request is protected, but not if an option that is not supported was cleared in it. -/
theorem cleared_option_refused :
    Context.shortRequest.SameAs (withEmptyEntry Context.shortRequest Coap.Options.observe) ∧
      ∃ a, Context.derive TestVector.crypto TestVector.client = .ok a ∧
        (a.perform TestVector.crypto (.protectRequest Context.shortRequest)).1.isOk = true ∧
        (a.perform TestVector.crypto (.protectRequest
          (withEmptyEntry Context.shortRequest Coap.Options.observe))).1 =
            .error (.unsupportedOption .observe) := by
  obtain ⟨a, -, ha, -, -⟩ := TestVector.derive_client
  have hnumber : a.sequenceNumber ≤ PartialIv.maxNumber := by
    rw [Context.sequenceNumber_of_derive ha]
    exact Nat.zero_le _
  obtain ⟨packet, id, hsent⟩ := Context.perform_protectRequest_of_protectable
    (TestVector.encryptsUpTo.mono (by decide)) Context.protectable_shortRequest hnumber
  refine ⟨sameAs_withEmptyEntry rfl, a, ha, ?_, ?_⟩
  · rw [hsent]
    rfl
  · rw [Context.perform_protectRequest, map_eq_error]
    unfold Context.sealRequest Context.requestSealing
    rw [Context.nextPiv_eq_ok.mpr ⟨hnumber, rfl⟩]
    rfl

end Session

end SecureCoap
