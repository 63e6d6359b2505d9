import SecureCoap.Proofs.Oscore.Message
import SecureCoap.Proofs.Oscore.NonceUniqueness
import SecureCoap.Proofs.Oscore.Pair

/-!
# What is protected is unprotected again

Of two contexts that match, one understands what the other one protects: a request, if its number
is new, and a response in either way of numbering it. The message that comes out is the one that
went in.
-/

namespace SecureCoap

namespace Oscore

namespace Context

variable {crypto : Primitives} {ctx other : Context} {m : Coap.Packet}

/-! ### Contexts in use -/

theorem Matches.after (h : ctx.Matches other) (calls calls' : List Call) :
    (ctx.after crypto calls).Matches (other.after crypto calls') := by
  obtain ⟨n, w, hctx⟩ := after_frame crypto ctx calls
  obtain ⟨n', w', hother⟩ := after_frame crypto other calls'
  rw [hctx, hother]
  exact h.of_frames n n' w w'

theorem Matches.of_mem_history (h : ctx.Matches other) {calls : List Call} {s : Step Context Call}
    (hs : s ∈ ctx.history crypto calls) : s.before.Matches other := by
  obtain ⟨n, w, hbefore⟩ := history_frame ctx calls s hs
  rw [hbefore]
  exact h.of_frames n other.sequenceNumber w other.window

/-! ### One message -/

theorem sealing_of_protectable (ctx : Context)
    (hencrypts : crypto.EncryptsUpTo Coap.maxPacketLength) (hm : Protectable m) (id : RequestId)
    (nonce : Bytes) :
    ∃ text ciphertext inside,
      ctx.sealing m id nonce = .ok ⟨ctx.senderKey, nonce, aad ctx.aead id.kid id.piv, text⟩ ∧
      crypto.encrypt ctx.senderKey nonce (aad ctx.aead id.kid id.piv) text = some ciphertext ∧
      parsePlaintext text = .ok inside ∧ Inside m inside := by
  obtain ⟨text, inside, htext, hlength, hparse, hinside⟩ := parsePlaintext_plaintext hm
  have hcheck : checkOptions m.options = .ok () := checkOptions_eq_ok.mpr hm.supported
  obtain ⟨ciphertext, hciphertext⟩ := hencrypts ctx.senderKey nonce
    (aad ctx.aead id.kid id.piv) text hlength
  exact ⟨text, ciphertext, inside, sealing_eq_ok.mpr ⟨hcheck, text, htext, rfl⟩, hciphertext,
    hparse, hinside⟩

/-- What one endpoint encrypts is what the other one decrypts, whatever the request and the nonce
are. -/
theorem opening_of_sealing (hmatch : ctx.Matches other) (hround : crypto.RoundTrips)
    (hencrypts : crypto.EncryptsUpTo Coap.maxPacketLength) (hm : Protectable m) (id : RequestId)
    (nonce option : Bytes) :
    ∃ s ciphertext, ctx.sealing m id nonce = .ok s ∧ s.run crypto = .ok ciphertext ∧
      ∃ o text inside, other.opening (outer m option ciphertext) id nonce = .ok o ∧
        o.run crypto = .ok text ∧ parsePlaintext text = .ok inside ∧
        (merge (outer m option ciphertext) inside).SameAs m := by
  obtain ⟨text, ciphertext, inside, hsealing, hciphertext, hparse, hinside⟩ :=
    sealing_of_protectable ctx hencrypts hm id nonce
  have hcheck : checkOptions m.options = .ok () := checkOptions_eq_ok.mpr hm.supported
  have hopening : other.opening (outer m option ciphertext) id nonce =
      .ok ⟨ctx.senderKey, nonce, aad ctx.aead id.kid id.piv, ciphertext⟩ := by
    refine opening_eq_ok.mpr ⟨checkOptions_outer hcheck option ciphertext, ?_⟩
    rw [hmatch.recipientKey, hmatch.aead]
    rfl
  exact ⟨_, ciphertext, hsealing, Sealing.run_eq_ok.mpr hciphertext, _, text, inside, hopening,
    Opening.run_eq_ok.mpr (hround hciphertext), hparse, merge_outer hinside option ciphertext⟩

/-! ### Requests -/

/-- As long as there are sequence numbers, a message that may be protected is protected. -/
theorem sealRequest_of_protectable (hencrypts : crypto.EncryptsUpTo Coap.maxPacketLength)
    (hm : Protectable m) (hnumber : ctx.sequenceNumber ≤ PartialIv.maxNumber) :
    ∃ packet id, ctx.sealRequest crypto m = .ok (packet, id) := by
  let id : RequestId := ⟨ctx.senderId, PartialIv.ofNumber ctx.sequenceNumber⟩
  obtain ⟨text, ciphertext, -, hsealing, hciphertext, -, -⟩ :=
    sealing_of_protectable ctx hencrypts hm id (ctx.ownNonce id.piv)
  exact ⟨_, id, sealRequest_eq_ok.mpr ⟨_, ciphertext,
    requestSealing_eq_ok.mpr ⟨hnumber, rfl, hsealing⟩, Sealing.run_eq_ok.mpr hciphertext, rfl⟩⟩

theorem protectRequest_of_protectable (hencrypts : crypto.EncryptsUpTo Coap.maxPacketLength)
    (hm : Protectable m) (hnumber : ctx.sequenceNumber ≤ PartialIv.maxNumber) :
    ∃ packet id, ctx.protectRequest crypto m = (.ok (packet, id), ctx.advance) := by
  obtain ⟨packet, id, hseal⟩ := sealRequest_of_protectable hencrypts hm hnumber
  exact ⟨packet, id, protectRequest_of_seal hseal⟩

theorem perform_protectRequest_of_protectable
    (hencrypts : crypto.EncryptsUpTo Coap.maxPacketLength) (hm : Protectable m)
    (hnumber : ctx.sequenceNumber ≤ PartialIv.maxNumber) :
    ∃ packet id, ctx.perform crypto (.protectRequest m) =
      (.ok ⟨packet, some id⟩, ctx.advance) := by
  obtain ⟨packet, id, hplain⟩ := protectRequest_of_protectable hencrypts hm hnumber
  refine ⟨packet, id, ?_⟩
  show (ctx.protectRequest crypto m).map _ _ = _
  rw [hplain]
  rfl

theorem sequenceNumber_of_sealRequest {packet : Coap.Packet} {id : RequestId}
    (h : ctx.sealRequest crypto m = .ok (packet, id)) : id.sequenceNumber = ctx.sequenceNumber := by
  obtain ⟨s, ciphertext, hs, -, -⟩ := sealRequest_eq_ok.mp h
  obtain ⟨hnumber, rfl, -⟩ := requestSealing_eq_ok.mp hs
  exact PartialIv.toNumber_ofNumber_of_le hnumber

/-- A protected request tells what identifies it. -/
theorem ofPacket_of_sealRequest {packet : Coap.Packet} {id : RequestId}
    (h : ctx.sealRequest crypto m = .ok (packet, id)) :
    OptionValue.ofPacket packet = .ok ⟨some id.kid, some id.piv⟩ := by
  obtain ⟨s, ciphertext, hs, -, rfl⟩ := sealRequest_eq_ok.mp h
  obtain ⟨hnumber, rfl, -⟩ := requestSealing_eq_ok.mp hs
  apply ofPacket_outer
  intro piv hpiv
  cases hpiv
  exact PartialIv.length_ofNumber_bounds hnumber

/-- Whatever one endpoint has protected as a request, the other one can open. -/
theorem openRequest_of_sealRequest (hmatch : ctx.Matches other) (hround : crypto.RoundTrips)
    (hnumbers : ∀ e ∈ m.options.entries, e.1 ≤ 0xFFFF) {packet : Coap.Packet} {id : RequestId}
    (h : ctx.sealRequest crypto m = .ok (packet, id))
    (hvalid : other.window.isValid id.sequenceNumber = true) :
    ∃ text inside, plaintext (inner m) = .ok text ∧ parsePlaintext text = .ok inside ∧
      other.openRequest crypto packet = .ok (merge packet inside, id) := by
  have hvalue := ofPacket_of_sealRequest h
  obtain ⟨s, ciphertext, hs, hrun, rfl⟩ := sealRequest_eq_ok.mp h
  obtain ⟨-, -, hsealing⟩ := requestSealing_eq_ok.mp hs
  obtain ⟨hcheck, text, htext, rfl⟩ := sealing_eq_ok.mp hsealing
  have hopening : other.opening (outer m (OptionValue.encode ⟨some id.kid, some id.piv⟩) ciphertext)
      id (other.peerNonce id.piv) =
        .ok ⟨ctx.senderKey, ctx.ownNonce id.piv, aad ctx.aead id.kid id.piv, ciphertext⟩ := by
    refine opening_eq_ok.mpr ⟨checkOptions_outer hcheck _ ciphertext, ?_⟩
    rw [hmatch.recipientKey, hmatch.aead, hmatch.peerNonce]
    rfl
  have hdecrypts : crypto.decrypt ctx.senderKey (ctx.ownNonce id.piv)
      (aad ctx.aead id.kid id.piv) ciphertext = some text := hround (Sealing.run_eq_ok.mp hrun)
  have hparse := parsePlaintext_of_plaintext hnumbers htext
  exact ⟨text, _, htext, hparse, openRequest_eq_ok.mpr ⟨_, text, _,
    requestOpening_eq_ok.mpr ⟨hvalue, hvalid, hopening⟩, Opening.run_eq_ok.mpr hdecrypts,
    hparse, rfl⟩⟩

theorem request_round_trip (hmatch : ctx.Matches other) (hround : crypto.RoundTrips)
    (hencrypts : crypto.EncryptsUpTo Coap.maxPacketLength) (hm : Protectable m)
    (hnumber : ctx.sequenceNumber ≤ PartialIv.maxNumber)
    (hvalid : other.window.isValid ctx.sequenceNumber = true) :
    ∃ q id m', (ctx.protectRequest crypto m).1 = .ok (q, id) ∧
      (other.unprotectRequest crypto q).1 = .ok (m', id) ∧ m'.SameAs m := by
  obtain ⟨packet, id, hseal⟩ := sealRequest_of_protectable hencrypts hm hnumber
  have hfresh : other.window.isValid id.sequenceNumber = true := by
    rw [sequenceNumber_of_sealRequest hseal]
    exact hvalid
  obtain ⟨text, inside, htext, hparse, hopen⟩ :=
    openRequest_of_sealRequest hmatch hround hm.numbers hseal hfresh
  obtain ⟨text', inside', htext', -, hparse', hinside⟩ := parsePlaintext_plaintext hm
  obtain rfl : text' = text := Except.ok.inj (htext'.symm.trans htext)
  obtain rfl : inside' = inside := Except.ok.inj (hparse'.symm.trans hparse)
  refine ⟨packet, id, merge packet inside', ?_, ?_, ?_⟩
  · rw [protectRequest_of_seal hseal]
  · unfold unprotectRequest
    rw [hopen]
  · obtain ⟨s, ciphertext, -, -, rfl⟩ := sealRequest_eq_ok.mp hseal
    exact merge_outer hinside _ ciphertext

/-! ### Responses -/

theorem response_round_trip (hmatch : other.Matches ctx) (hround : crypto.RoundTrips)
    (hencrypts : crypto.EncryptsUpTo Coap.maxPacketLength) (hm : Protectable m) (id : RequestId)
    (reusePiv : Bool) (hnumber : reusePiv = false → other.sequenceNumber ≤ PartialIv.maxNumber) :
    ∃ q m', (other.protectResponse crypto m id reusePiv).1 = .ok q ∧
      (ctx.unprotectResponse crypto q id).1 = .ok m' ∧ m'.SameAs m := by
  -- Either way the sender's nonce is the one that the receiver computes from the option.
  obtain ⟨nonce, piv, hpiv, hsealing, hnonce⟩ : ∃ nonce piv,
      (∀ bs, piv = some bs → 0 < bs.length ∧ bs.length ≤ 7) ∧
      (∀ s, other.sealing m id nonce = .ok s →
        other.responseSealing m id reusePiv = .ok (s, piv)) ∧
      ctx.responseNonce id piv = nonce := by
    cases reusePiv with
    | true =>
      refine ⟨other.peerNonce id.piv, none, ?_, ?_, ?_⟩
      · intro bs hbs
        cases hbs
      · intro s hs
        exact responseSealing_reuse_eq_ok.mpr ⟨rfl, hs⟩
      · show ctx.ownNonce id.piv = _
        rw [hmatch.ownNonce]
    | false =>
      refine ⟨other.ownNonce (PartialIv.ofNumber other.sequenceNumber),
        some (PartialIv.ofNumber other.sequenceNumber), ?_, ?_, ?_⟩
      · intro bs hbs
        cases hbs
        exact PartialIv.length_ofNumber_bounds (hnumber rfl)
      · intro s hs
        exact responseSealing_own_eq_ok.mpr ⟨hnumber rfl, rfl, hs⟩
      · show ctx.peerNonce _ = _
        rw [hmatch.peerNonce]
  obtain ⟨s, ciphertext, hs, hrun, o, text, inside, hopening, htext, hinside, hsame⟩ :=
    opening_of_sealing hmatch hround hencrypts hm id nonce (OptionValue.encode ⟨none, piv⟩)
  have hsealed := sealResponse_eq_ok.mpr ⟨s, piv, ciphertext, hsealing s hs, hrun, rfl⟩
  have hvalue : OptionValue.ofPacket (outer m (OptionValue.encode ⟨none, piv⟩) ciphertext) =
      .ok ⟨none, piv⟩ := ofPacket_outer hpiv ciphertext
  rw [← hnonce] at hopening
  have hopened := openResponse_eq_ok.mpr
    ⟨o, text, inside, responseOpening_eq_ok.mpr ⟨_, hvalue, hopening⟩, htext, hinside, rfl⟩
  refine ⟨_, _, ?_, hopened, hsame⟩
  unfold protectResponse
  rw [hsealed]

theorem protectable_shortRequest : Protectable shortRequest where
  code := by decide
  supported := by decide
  numbers := by decide
  length := by decide

/-! ### Two endpoints that derived their contexts from the same secret -/

/-- Whatever two endpoints did with their contexts before, one understands the requests of the
other, as long as their numbers are new, and gets back the responses that the other one gives. -/
theorem round_trip {p : Parameters} {a₀ b₀ : Context} {size : Nat}
    (ha : derive crypto p = .ok a₀)
    (hb : derive crypto { p.swap with windowSize := size } = .ok b₀) (hround : crypto.RoundTrips)
    (hencrypts : crypto.EncryptsUpTo Coap.maxPacketLength) (hm : Protectable m)
    (callsA callsB : List Call) :
    let a := a₀.after crypto callsA
    let b := b₀.after crypto callsB
    (a.sequenceNumber ≤ PartialIv.maxNumber → b.window.isValid a.sequenceNumber = true →
      ∃ q id m', (a.protectRequest crypto m).1 = .ok (q, id) ∧
        (b.unprotectRequest crypto q).1 = .ok (m', id) ∧ m'.SameAs m) ∧
    ∀ id reusePiv, (reusePiv = false → b.sequenceNumber ≤ PartialIv.maxNumber) →
      ∃ q m', (b.protectResponse crypto m id reusePiv).1 = .ok q ∧
        (a.unprotectResponse crypto q id).1 = .ok m' ∧ m'.SameAs m := by
  intro a b
  have hmatch : a.Matches b := (matches_of_derive ha hb).after callsA callsB
  constructor
  · intro hnumber hvalid
    exact request_round_trip hmatch hround hencrypts hm hnumber hvalid
  · intro id reusePiv hnumber
    exact response_round_trip hmatch.symm hround hencrypts hm id reusePiv hnumber

/-! ### A message with options of all kinds -/

/-- A message with a host outside, a path of two segments, an option that says how an earlier
message was protected, an option without values and one with a large number. -/
def mixedRequest : Coap.Packet :=
  { Coap.Packet.ofCode (.request .post) with
    messageId := 0x5D1F
    token := [0x00, 0x00, 0x39, 0x74]
    options :=
      ((((((Coap.Options.empty.add Coap.Options.uriHost [0x3A, 0x3A, 0x31]).add
        Coap.Options.oscore [0x09, 0x14]).add Coap.Options.uriPath [0x74, 0x76, 0x31]).add
        Coap.Options.uriPath []).add Coap.Options.edhoc []).set 2049 []).add 65000 [0xFF, 0x00]
    payload := [0xFF, 0x01] }

theorem protectable_mixedRequest : Protectable mixedRequest where
  code := by decide
  supported := by decide
  numbers := by decide
  length := by decide

theorem round_trip_mixedRequest :
    ∃ a b, derive TestVector.crypto TestVector.client = .ok a ∧
      derive TestVector.crypto { TestVector.client.swap with windowSize := 8 } = .ok b ∧
      (∃ q id m', (a.protectRequest TestVector.crypto mixedRequest).1 = .ok (q, id) ∧
        (b.unprotectRequest TestVector.crypto q).1 = .ok (m', id) ∧ m'.SameAs mixedRequest) ∧
      ∀ id reusePiv, ∃ q m',
        (b.protectResponse TestVector.crypto mixedRequest id reusePiv).1 = .ok q ∧
        (a.unprotectResponse TestVector.crypto q id).1 = .ok m' ∧ m'.SameAs mixedRequest := by
  obtain ⟨a, -, ha, -, -⟩ := TestVector.derive_client
  obtain ⟨b, hb⟩ := TestVector.derive_server 8
  obtain ⟨hrequest, hresponse⟩ := round_trip ha hb TestVector.roundTrips
    (TestVector.encryptsUpTo.mono (by decide)) protectable_mixedRequest [] []
  have hzeroA : a.sequenceNumber = 0 := sequenceNumber_of_derive ha
  have hzeroB : b.sequenceNumber = 0 := sequenceNumber_of_derive hb
  have hvalid : b.window.isValid a.sequenceNumber = true := by
    rw [hzeroA]
    exact (tracks_of_derive hb).isValid_of_nil 0
  refine ⟨a, b, ha, hb, hrequest ?_ hvalid, ?_⟩
  · show a.sequenceNumber ≤ _
    rw [hzeroA]
    exact Nat.zero_le _
  · intro id reusePiv
    apply hresponse id reusePiv
    intro _
    show b.sequenceNumber ≤ _
    rw [hzeroB]
    exact Nat.zero_le _

end Context

end Oscore

end SecureCoap
