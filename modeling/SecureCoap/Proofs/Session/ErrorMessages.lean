import SecureCoap.Proofs.Edhoc.ErrorMessage
import SecureCoap.Proofs.Session.Restart

/-!
# Error messages in answer to the first message

A handshake ends at an answer that is noticed to be an error message, and takes any other for the
second message. An error message is noticed exactly if its information is a text, whatever its code:
one that lists cipher suites is not.
-/

namespace SecureCoap

namespace Session

open Cbor (IsInteger)
open Edhoc (IsCode IsInfo failOnErrorMessage)

variable {ε τ α : Type} {s : Setting ε τ} {destination : String} {acts : List Act}
  {phases : List Phase} {r : Except Error α}

/-! ### Answers -/

/-- By these acts, the first message was answered in time with this payload. What came after that
are the acts `later`. -/
def Answered (s : Setting ε τ) (destination : String) (payload : Bytes) (acts later : List Act) :
    Prop :=
  ∃ answer packet reply response,
    acts = .asked (.firstMessage s.config.connectionId) answer ::
      .exchanged destination packet reply :: later ∧
    reply.within s.config.timeout = .ok response ∧ response.payload = payload

/-- What comes of an answer with this payload: if it is noticed to be an error message, nothing but
the failure, and otherwise the question for the second message in it. -/
structure Heeded (payload : Bytes) (later : List Act) (r : Except Error α) : Prop where
  noticed : ∀ e, failOnErrorMessage payload = .error e → later = [] ∧ r = .error (.edhoc e)
  passed : failOnErrorMessage payload = .ok () →
    ∃ answer more, later = .asked (.secondMessage payload) answer :: more

/-- The answer to the first message is heeded, if there is one among these acts. -/
def Heeds (s : Setting ε τ) (destination : String) (acts : List Act) (r : Except Error α) : Prop :=
  ∀ payload later, Answered s destination payload acts later → Heeded payload later r

theorem heeds_of_response {answer : Except Edhoc.Error Bytes} {packet response : Coap.Packet}
    {reply : Reply} {later : List Act} (hreply : reply.within s.config.timeout = .ok response)
    (h : Heeded response.payload later r) :
    Heeds s destination (.asked (.firstMessage s.config.connectionId) answer ::
      .exchanged destination packet reply :: later) r := by
  rintro payload later' ⟨answer', packet', reply', response', heq, hreply', rfl⟩
  cases heq
  obtain rfl : response = response' := Except.ok.inj (hreply.symm.trans hreply')
  exact h

theorem heeded_of_noticed {payload : Bytes} {e : Edhoc.Error}
    (h : failOnErrorMessage payload = .error e) :
    Heeded payload [] (.error (.edhoc e) : Except Error α) := by
  constructor
  · intro e' he
    rw [h] at he
    cases he
    exact ⟨rfl, rfl⟩
  · intro hok
    rw [h] at hok
    cases hok

theorem heeded_of_passed {payload : Bytes} (h : failOnErrorMessage payload = .ok ())
    (answer : Except Edhoc.Error Edhoc.SecondMessage) (more : List Act) :
    Heeded payload (.asked (.secondMessage payload) answer :: more) r := by
  constructor
  · intro e he
    rw [h] at he
    cases he
  · intro _
    exact ⟨answer, more, rfl⟩

/-! ### Whole handshakes -/

namespace Handshake

theorem Greets.heeds {e : Error} (h : Greets s destination acts phases (.error e)) :
    Heeds s destination acts (.error e : Except Error α) := by
  cases h with
  | unasked e =>
    rintro payload later ⟨_, _, _, _, heq, -⟩
    cases heq
  | unanswered hreply =>
    rintro payload later ⟨_, _, _, _, heq, hreply', -⟩
    cases heq
    rw [hreply] at hreply'
    cases hreply'
  | refused hreply hpayload => exact heeds_of_response hreply (heeded_of_noticed hpayload)
  | unread hreply hpayload => exact heeds_of_response hreply (heeded_of_passed hpayload _ [])

theorem Greets.heeds_append {second : Edhoc.SecondMessage}
    (h : Greets s destination acts phases (.ok second)) (more : List Act) :
    Heeds s destination (acts ++ more) r := by
  cases h with
  | greeted hreply hpayload => exact heeds_of_response hreply (heeded_of_passed hpayload _ more)

theorem Advances.heeds {request : Coap.Packet} {r : Except Error (Established × EdhocContext)}
    (h : Advances s destination request acts phases r) : Heeds s destination acts r := by
  cases h with
  | ungreeted hgreet => exact hgreet.heeds
  | unauthenticated hgreet hauthenticate => exact hgreet.heeds_append _
  | authenticated hgreet hauthenticate hconclude =>
    rw [List.append_assoc]
    exact hgreet.heeds_append _

/-- A code with anything after it is noticed to be an error message exactly if what comes after it
is a text. The handshake in which the first message is answered so fails then with code and text,
and has done nothing more. Otherwise the engine is asked for a second message in it. -/
theorem error_messages_noticed_iff (s : Setting ε τ) (destination : String)
    (request : Coap.Packet) (w : World ε τ) {n : Int} {code info : Bytes} (hn : IsCode n)
    (hcode : IsInteger n code) (hlength : (code ++ info).length < 2 ^ 63) :
    (∀ t, failOnErrorMessage (code ++ info) = .error (.peerError n t) ↔ IsInfo t info) ∧
    (failOnErrorMessage (code ++ info) = .ok () ↔ ∀ t, ¬IsInfo t info) ∧
    ∃ acts, w.Does s acts ((run s destination request).run.run w).2 ∧
      ∀ later, Answered s destination (code ++ info) acts later →
        (∀ t, IsInfo t info →
          ((run s destination request).run.run w).1 = .error (.edhoc (.peerError n t)) ∧
          ((run s destination request).run.run w).2.phase = .aborted ∧ later = []) ∧
        ((∀ t, ¬IsInfo t info) →
          ∃ answer more, later = .asked (.secondMessage (code ++ info)) answer :: more) := by
  have herror : ∀ t,
      failOnErrorMessage (code ++ info) = .error (.peerError n t) ↔ IsInfo t info := by
    intro t
    rw [Edhoc.failOnErrorMessage_append hn hcode hlength]
    exact ⟨And.right, fun h => ⟨rfl, h⟩⟩
  have hok : failOnErrorMessage (code ++ info) = .ok () ↔ ∀ t, ¬IsInfo t info := by
    constructor
    · intro h t ht
      rw [(herror t).mpr ht] at h
      cases h
    · intro hnone
      rcases Edhoc.failOnErrorMessage_cases (code ++ info) with ⟨n', t, h⟩ | h
      · exact absurd ((Edhoc.failOnErrorMessage_append hn hcode hlength).mp h).2 (hnone t)
      · exact h
  obtain ⟨acts, phases, r, hdoes, hadvances, hr⟩ := run_advances s destination request w
  refine ⟨herror, hok, acts, hdoes, fun later hanswered => ?_⟩
  have hheeded := hadvances.heeds _ later hanswered
  refine ⟨fun t ht => ?_, fun hnone => hheeded.passed (hok.mpr hnone)⟩
  obtain ⟨hlater, hfailed⟩ := hheeded.noticed _ ((herror t).mpr ht)
  have hresult : ((run s destination request).run.run w).1 = .error (.edhoc (.peerError n t)) := by
    rw [hr, hfailed]
    rfl
  refine ⟨hresult, ?_, hlater⟩
  rw [run_phase, hresult]
  rfl

end Handshake

/-! ### Texts and lists of cipher suites -/

/-- A setting in which the first message is answered with this payload. -/
def answering (payload : Bytes) : Setting Unit Unit :=
  { fixedSetting with
    link := fixedLink { Coap.Packet.ofCode (.response .changed) with payload } }

/-- Code 7 and the text "no". -/
theorem Handshake.error_messages_noticed_iff_seven :
    let payload : Bytes := [0x07] ++ [0x62, 0x6E, 0x6F]
    let w : World Unit Unit := .fresh () ⟨(), [], []⟩
    let (result, w') := (run (answering payload) "peer" observing).run.run w
    failOnErrorMessage payload = .error (.peerError 7 "no") ∧
      result = .error (.edhoc (.peerError 7 "no")) ∧ w'.phase = .aborted ∧
      ∃ acts, w.Does (answering payload) acts w' ∧
        Answered (answering payload) "peer" payload acts [] := by
  have hcode : IsInteger 7 [0x07] := Cbor.IsBody.unsigned (.short (by decide))
  have hinfo : IsInfo "no" [0x62, 0x6E, 0x6F] := .of_none (Cbor.isText_encodeText (by decide))
  have hlength : ([0x07] ++ [0x62, 0x6E, 0x6F] : Bytes).length < 2 ^ 63 := by decide
  obtain ⟨herror, -, acts, hdoes, hacts⟩ := error_messages_noticed_iff
    (answering ([0x07] ++ [0x62, 0x6E, 0x6F])) "peer" observing (.fresh () ⟨(), [], []⟩)
    (by decide) hcode hlength
  have hanswered : Answered (answering ([0x07] ++ [0x62, 0x6E, 0x6F])) "peer"
      ([0x07] ++ [0x62, 0x6E, 0x6F]) acts [] := by
    rw [hdoes.acts_eq]
    exact ⟨_, _, _, _, rfl, rfl, rfl⟩
  obtain ⟨hresult, hphase, -⟩ := (hacts [] hanswered).1 "no" hinfo
  exact ⟨(herror "no").mpr hinfo, hresult, hphase, acts, hdoes, hanswered⟩

/-- The error with code 2 whose information is the cipher suite 2 is not noticed: the handshake asks
for a second message in it. -/
theorem Handshake.suite_error_unnoticed :
    let payload : Bytes := [0x02, 0x02]
    let w : World Unit Unit := .fresh () ⟨(), [], []⟩
    IsCode 2 ∧ IsInteger 2 [0x02] ∧ failOnErrorMessage payload = .ok () ∧
      Event.asked (.secondMessage payload) ∈
        w.newEvents ((run (answering payload) "peer" observing).run.run w).2 := by
  refine ⟨by decide, Cbor.IsBody.unsigned (.short (by decide)), rfl, ?_⟩
  decide +kernel

end Session

end SecureCoap
