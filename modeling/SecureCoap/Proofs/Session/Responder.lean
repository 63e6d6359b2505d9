import SecureCoap.Proofs.Oscore.EmptyEntries
import SecureCoap.Proofs.Session.Combined
import SecureCoap.Proofs.Session.Courses
import SecureCoap.Proofs.Session.Failure

/-!
# A responder that answers

A responder takes the final message off the first request, opens the request with a context of its
own, and protects a response to it. If that context matches the one of the initiator, a handshake
that has come as far as its context is established, and gives the application that response.
-/

namespace SecureCoap

namespace Session

open Oscore (Context Protectable Unsupported)

variable {ε τ : Type}

/-! ### Answers -/

/-- What a responder with the context `b` answers to the first request. -/
def answer (crypto : Primitives) (b : Context) (response packet : Coap.Packet) :
    Except Error Coap.Packet := do
  let (_, sent) ← splitCombined packet
  let (_, id) ← (b.unprotectRequest crypto sent).1.mapError .oscore
  ((b.unprotectRequest crypto sent).2.protectResponse crypto response id true).1.mapError .oscore

/-- The contexts of an initiator and of a responder match, and a request and a response can be sent
under them. -/
structure Compatible (crypto : Primitives) (a b : Context) (request response : Coap.Packet) :
    Prop where
  matching : a.Matches b
  roundTrips : crypto.RoundTrips
  encrypts : crypto.EncryptsUpTo Coap.maxPacketLength
  sends : Protectable request
  unmarked : request.options.has Coap.Options.edhoc = false
  responds : Protectable response
  number : a.sequenceNumber ≤ Oscore.PartialIv.maxNumber
  fresh : b.window.isValid a.sequenceNumber = true

section

variable {crypto : Primitives} {a b : Context} {request response sent q : Coap.Packet}

theorem supported_combine (message : Bytes)
    (h : ∀ e ∈ sent.options.entries, Unsupported.ofNumber? e.1 = none) :
    ∀ e ∈ (combine message sent).options.entries, Unsupported.ofNumber? e.1 = none := by
  intro e he
  rcases Coap.Options.mem_alterEntries he with hedhoc | he
  · rw [hedhoc]
    rfl
  · exact h e he

theorem supported_of_split {packet : Coap.Packet} {message? : Option Bytes}
    (hmarked : packet.options.has Coap.Options.edhoc = true)
    (hsplit : splitCombined packet = .ok (message?, q))
    (h : ∀ e ∈ packet.options.entries, Unsupported.ofNumber? e.1 = none) :
    ∀ e ∈ q.options.entries, Unsupported.ofNumber? e.1 = none := by
  obtain ⟨n, -, -, rfl⟩ := (splitCombined_eq_ok hmarked).mp hsplit
  intro e he
  obtain ⟨e', he', rfl⟩ := List.mem_map.mp he
  exact h e' he'

/-- Entries without values are of no importance when a request is opened. -/
theorem unprotectRequest_of_sameAs {m : Coap.Packet} {id : Oscore.RequestId}
    (hcheck : Oscore.checkOptions q.options = Oscore.checkOptions sent.options)
    (hsame : q.SameAs sent) (h : (b.unprotectRequest crypto sent).1 = .ok (m, id)) :
    ∃ m', (b.unprotectRequest crypto q).1 = .ok (m', id) := by
  have halike : Oscore.Alike ((b.unprotectRequest crypto q).1.map Oscore.Outcome.request)
      ((b.unprotectRequest crypto sent).1.map Oscore.Outcome.request) :=
    Context.alike_arrival .request hcheck (Oscore.sameForReceiver_of_sameAs hsame)
  rw [h] at halike
  rcases hq : (b.unprotectRequest crypto q).1 with e | ⟨m', id'⟩
  · rw [hq] at halike
    cases halike
  · rw [hq] at halike
    cases halike with
    | ok hpackets hids =>
      obtain rfl : id' = id := Option.some.inj hids
      exact ⟨m', rfl⟩

/-- The responder takes the first request apart, and what it answers is understood. -/
theorem answer_first (h : Compatible crypto a b request response) {final : Bytes}
    (hfinal : Cbor.IsByteString final) :
    ∃ message q received,
      ((⟨a, some final⟩ : EdhocContext).protect crypto request).1 = .ok message ∧
      message.packet.options.has Coap.Options.edhoc = true ∧
      answer crypto b response message.packet = .ok q ∧
      (((⟨a, some final⟩ : EdhocContext).protect crypto request).2.unprotectResponse crypto q
        message.request).1 = .ok received ∧
      received.SameAs response := by
  obtain ⟨sent, id, m, hsent, hopened, -⟩ :=
    Context.request_round_trip h.matching h.roundTrips h.encrypts h.sends h.number h.fresh
  have hprotect : ((⟨a, some final⟩ : EdhocContext).protect crypto request).1 =
      .ok ⟨combine final sent, id, some final⟩ := by
    rw [EdhocContext.protect_eq, hsent]
    rfl
  obtain ⟨option, ciphertext, hpacket⟩ := Context.outer_of_protectRequest hsent
  have hunmarked : sent.options.has Coap.Options.edhoc = false := by
    unfold Coap.Options.has
    rw [hpacket, Oscore.values_outer (by decide)]
    exact h.unmarked
  have hsupported : ∀ e ∈ sent.options.entries, Unsupported.ofNumber? e.1 = none := by
    rw [hpacket]
    exact Oscore.checkOptions_eq_ok.mp (Oscore.checkOptions_outer
      (Oscore.checkOptions_eq_ok.mpr h.sends.supported) option ciphertext)
  -- What is left of the packet differs from what was protected in an entry without values.
  obtain ⟨apart, hsplit, hsame⟩ := split_combine hfinal hunmarked
  have hcheck : Oscore.checkOptions apart.options = Oscore.checkOptions sent.options := by
    have hapart := supported_of_split (has_combine final sent) hsplit
      (supported_combine final hsupported)
    exact (Oscore.checkOptions_eq_ok.mpr hapart).trans
      (Oscore.checkOptions_eq_ok.mpr hsupported).symm
  obtain ⟨m', hopened'⟩ := unprotectRequest_of_sameAs hcheck hsame hopened
  obtain ⟨n, w, hframe⟩ := Context.after_frame crypto b [.unprotectRequest apart]
  have hafter : (b.unprotectRequest crypto apart).2 =
      { b with sequenceNumber := n, window := w } := hframe
  have hmatch' : (b.unprotectRequest crypto apart).2.Matches a.advance := by
    rw [hafter]
    exact h.matching.symm.of_frames n _ w _
  obtain ⟨q, received, hanswered, hreceived, hsame'⟩ :=
    Context.response_round_trip hmatch' h.roundTrips h.encrypts h.responds id true nofun
  refine ⟨_, q, received, hprotect, has_combine final sent, ?_, ?_, hsame'⟩
  · exact bind_eq_ok.mpr ⟨_, hsplit, bind_eq_ok.mpr ⟨(m', id), mapError_eq_ok.mpr hopened',
      mapError_eq_ok.mpr hanswered⟩⟩
  · rw [EdhocContext.after_protect hprotect]
    exact mapError_eq_ok.mpr hreceived

end

/-! ### Handshakes with such a responder -/

/-- What a responder with the context `b` answers to a first request comes back in time. -/
def Answers (s : Setting ε τ) (destination : String) (b : Context) (response : Coap.Packet) :
    Prop :=
  ∀ packet q, packet.options.has Coap.Options.edhoc = true →
    answer s.crypto b response packet = .ok q →
      ∀ link, (s.link.send destination packet link).1.within s.config.timeout = .ok q

namespace Handshake

variable {s : Setting ε τ} {destination : String} {a b : Context} {request response : Coap.Packet}
  {final : Bytes}

theorem firstExchange_answered (h : Compatible s.crypto a b request response)
    (hanswers : Answers s destination b response) (hfinal : Cbor.IsByteString final)
    (id : ContextId) (w : World ε τ) :
    ∃ received, ((firstExchange s destination id ⟨a, some final⟩ request).run.run w).1 =
      .ok received ∧ received.SameAs response := by
  obtain ⟨message, q, received, hprotect, hmarked, hanswered, hreceived, hsame⟩ :=
    answer_first h hfinal
  have hback := hanswers message.packet q hmarked hanswered
  obtain ⟨acts, phases, hpasses, hrequests⟩ :=
    firstExchange_performs s destination id ⟨a, some final⟩ request w
  refine ⟨received, ?_, hsame⟩
  generalize ((firstExchange s destination id ⟨a, some final⟩ request).run.run w).1 = r at *
  cases hrequests with
  | unprotected hfailed =>
    rw [hprotect] at hfailed
    cases hfailed
  | @unanswered message' reply e hprotect' hreply =>
    obtain rfl : message' = message := Except.ok.inj (hprotect'.symm.trans hprotect)
    obtain ⟨-, link, rfl⟩ := hpasses.acts.exchanged (List.mem_singleton_self _)
    rw [hback link] at hreply
    cases hreply
  | @answered message' reply back _ hprotect' hreply hr =>
    obtain rfl : message' = message := Except.ok.inj (hprotect'.symm.trans hprotect)
    obtain ⟨-, link, rfl⟩ := hpasses.acts.exchanged (List.mem_singleton_self _)
    obtain rfl : q = back := Except.ok.inj ((hback link).symm.trans hreply)
    exact hr.symm.trans hreceived

/-- With a responder that answers, a handshake that has derived its context is established. -/
theorem run_answered {w w₁ : World ε τ}
    (hprepare : (prepare s destination).run.run w = (.ok ⟨a, some final⟩, w₁))
    (h : Compatible s.crypto a b request response)
    (hanswers : Answers s destination b response) (hfinal : Cbor.IsByteString final) :
    ∃ session w₂ w', (advance s destination request).run.run w =
        (.ok (session, ⟨a, some final⟩), w₂) ∧
      (run s destination request).run.run w = (.ok session, w') ∧
      session.response.SameAs response := by
  obtain ⟨received, hfirst, hsame⟩ := firstExchange_answered h hanswers hfinal
    w₁.transport.contexts.length (afterRegister destination ⟨a, some final⟩ w₁)
  rcases hrun : (firstExchange s destination w₁.transport.contexts.length ⟨a, some final⟩
    request).run.run (afterRegister destination ⟨a, some final⟩ w₁) with ⟨r, w₂⟩
  rw [hrun] at hfirst
  obtain rfl : r = .ok received := hfirst
  have hadvance : (advance s destination request).run.run w =
      (.ok (⟨w₁.transport.contexts.length, received⟩, ⟨a, some final⟩), w₂) := by
    rw [advance_of_prepare hprepare, hrun]
  exact ⟨_, w₂, _, hadvance, run_of_ok hadvance, hsame⟩

end Handshake

/-! ### A responder with the keys of a test vector -/

/-- An engine that exports what a test vector starts with. -/
def vectorEngine : Edhoc.Engine Unit where
  suite _ := Edhoc.suite2
  answer query state :=
    match query with
    | .exporter label _ _ =>
      (.ok (if label = secretLabel then Oscore.TestVector.client.masterSecret
        else Oscore.TestVector.client.masterSalt), state)
    | .firstMessage _ => (.ok [0x00], state)
    | .secondMessage _ => (.ok ⟨.bytes [], [0xF6], none⟩, state)
    | .verifyPeer .. => (.ok (), state)
    | .finalMessage _ => (.ok [0x43, 1, 2, 3], state)

/-- A responder that derives a new context for each first request. -/
def vectorLink (response : Coap.Packet) : Link Unit where
  send _ packet state :=
    match packet.payload with
    | 0xF5 :: _ => (⟨.ok (Coap.Packet.ofCode (.response .changed)), 0⟩, state)
    | _ =>
      let answered := do
        let b ← (Context.derive Oscore.TestVector.crypto
          Oscore.TestVector.client.swap).mapError Error.oscore
        answer Oscore.TestVector.crypto b response packet
      (⟨answered.mapError fun e => .other e.message, 0⟩, state)

def vectorSetting : Setting Unit Unit where
  crypto := Oscore.TestVector.crypto
  engine := vectorEngine
  link := vectorLink (Context.shortResponse 1)
  registry := ⟨[([0xF6], ⟨[0xF6], none⟩)]⟩
  config := { Config.standard with connectionId := .int 1 }

theorem protectable_shortResponse : Protectable (Context.shortResponse 1) where
  code := by decide
  supported := by decide
  numbers := by decide
  length := by decide

theorem answers_vectorSetting {b : Context} (destination : String)
    (hb : Context.derive Oscore.TestVector.crypto Oscore.TestVector.client.swap = .ok b) :
    Answers vectorSetting destination b (Context.shortResponse 1) := by
  intro packet q hmarked hanswered link
  -- A packet that can be taken apart begins with a byte string, and not as a first message does.
  have hbegin : ∀ rest, packet.payload ≠ 0xF5 :: rest := by
    intro rest hpayload
    obtain ⟨⟨message?, sent⟩, hsplit, -⟩ := bind_eq_ok.mp hanswered
    obtain ⟨n, hn, -⟩ := (splitCombined_eq_ok hmarked).mp hsplit
    rw [hpayload] at hn
    cases hn
  show ((vectorLink _).send destination packet link).1.within _ = _
  unfold vectorLink
  dsimp only
  split
  · next rest hpayload => exact absurd hpayload (hbegin rest)
  · rw [hb]
    exact mapError_eq_ok.mpr hanswered

theorem prepare_vectorSetting (destination : String) (w : World Unit Unit) :
    ∃ a w₁, Context.derive Oscore.TestVector.crypto Oscore.TestVector.client = .ok a ∧
      (Handshake.prepare vectorSetting destination).run.run w =
        (.ok ⟨a, some [0x43, 1, 2, 3]⟩, w₁) :=
  ⟨_, _, rfl, rfl⟩

/-- In whatever world it begins, a handshake with this responder is established. -/
theorem Handshake.run_vectorSetting (destination : String) {request : Coap.Packet}
    (hrequest : Protectable request)
    (hplain : request.options.has Coap.Options.edhoc = false) (w : World Unit Unit) :
    ∃ a session w₂ w',
      Context.derive Oscore.TestVector.crypto Oscore.TestVector.client = .ok a ∧
      (advance vectorSetting destination request).run.run w =
        (.ok (session, ⟨a, some [0x43, 1, 2, 3]⟩), w₂) ∧
      (run vectorSetting destination request).run.run w = (.ok session, w') ∧
      session.response.SameAs (Context.shortResponse 1) := by
  obtain ⟨a, w₁, ha, hprepare⟩ := prepare_vectorSetting destination w
  obtain ⟨-, b, -, hb, -⟩ := Oscore.TestVector.derive_client
  have hcompatible : Compatible vectorSetting.crypto a b request (Context.shortResponse 1) :=
    { matching := Context.matches_of_derive ha hb
      roundTrips := Oscore.TestVector.roundTrips
      encrypts := Oscore.TestVector.encryptsUpTo.mono (by decide)
      sends := hrequest
      unmarked := hplain
      responds := protectable_shortResponse
      number := by
        rw [Context.sequenceNumber_of_derive ha]
        exact Nat.zero_le _
      fresh := (Context.tracks_of_derive hb).isValid_of_nil a.sequenceNumber }
  obtain ⟨session, w₂, w', hadvance, hrun, hsame⟩ :=
    run_answered hprepare hcompatible (answers_vectorSetting destination hb) (by decide)
  exact ⟨a, session, w₂, w', ha, hadvance, hrun, hsame⟩

end Session

end SecureCoap
