import SecureCoap.Oscore.Call
import SecureCoap.Proofs.Computation

/-!
# When messages are protected and unprotected

For each operation, what has to be there for it to succeed, and what it gives then. The rest of the
theory reads these equivalences and not the operations themselves.
-/

namespace SecureCoap

namespace Oscore

variable {crypto : Primitives}

/-! ### Encryption and decryption -/

theorem Sealing.run_eq_ok {s : Sealing} {ciphertext : Bytes} :
    s.run crypto = .ok ciphertext ↔
      crypto.encrypt s.key s.nonce s.aad s.plaintext = some ciphertext := by
  unfold Sealing.run
  split
  · next c h => rw [h, Except.ok.injEq, Option.some.injEq]
  · next h => simp [h]

theorem Opening.run_eq_ok {o : Opening} {plaintext : Bytes} :
    o.run crypto = .ok plaintext ↔
      crypto.decrypt o.key o.nonce o.aad o.ciphertext = some plaintext := by
  unfold Opening.run
  split
  · next c h => rw [h, Except.ok.injEq, Option.some.injEq]
  · next h => simp [h]

namespace Context

variable {ctx : Context} {m packet : Coap.Packet} {id : RequestId} {s : Sealing} {o : Opening}

theorem nextPiv_eq_ok {piv : Bytes} :
    ctx.nextPiv = .ok piv ↔
      ctx.sequenceNumber ≤ PartialIv.maxNumber ∧ piv = PartialIv.ofNumber ctx.sequenceNumber := by
  unfold nextPiv
  split
  · next h =>
    rw [Except.ok.injEq]
    constructor
    · intro hpiv
      exact ⟨h, hpiv.symm⟩
    · intro h
      obtain ⟨-, hpiv⟩ := h
      exact hpiv.symm
  · next h =>
    constructor
    · intro hok
      cases hok
    · intro h
      obtain ⟨hle, -⟩ := h
      exact absurd hle h

theorem sealing_eq_ok {nonce : Bytes} :
    ctx.sealing m id nonce = .ok s ↔
      checkOptions m.options = .ok () ∧ ∃ text, plaintext (inner m) = .ok text ∧
        s = ⟨ctx.senderKey, nonce, aad ctx.aead id.kid id.piv, text⟩ := by
  unfold sealing
  simp only [bind_eq_ok, pure_eq_ok]
  constructor
  · intro h
    obtain ⟨⟨⟩, hcheck, text, htext, hs⟩ := h
    exact ⟨hcheck, text, htext, hs.symm⟩
  · intro h
    obtain ⟨hcheck, text, htext, hs⟩ := h
    exact ⟨(), hcheck, text, htext, hs.symm⟩

theorem sealing_under {nonce : Bytes} (h : ctx.sealing m id nonce = .ok s) :
    s.key = ctx.senderKey ∧ s.nonce = nonce ∧ s.aad = aad ctx.aead id.kid id.piv := by
  obtain ⟨-, text, -, rfl⟩ := sealing_eq_ok.mp h
  exact ⟨rfl, rfl, rfl⟩

theorem opening_eq_ok {nonce : Bytes} :
    ctx.opening packet id nonce = .ok o ↔
      checkOptions packet.options = .ok () ∧
        o = ⟨ctx.recipientKey, nonce, aad ctx.aead id.kid id.piv, packet.payload⟩ := by
  unfold opening
  simp only [bind_eq_ok, pure_eq_ok]
  constructor
  · intro h
    obtain ⟨⟨⟩, hcheck, ho⟩ := h
    exact ⟨hcheck, ho.symm⟩
  · intro h
    obtain ⟨hcheck, ho⟩ := h
    exact ⟨(), hcheck, ho.symm⟩

/-! ### Requests -/

theorem requestSealing_eq_ok :
    ctx.requestSealing m = .ok (s, id) ↔
      ctx.sequenceNumber ≤ PartialIv.maxNumber ∧
        id = ⟨ctx.senderId, PartialIv.ofNumber ctx.sequenceNumber⟩ ∧
        ctx.sealing m id (ctx.ownNonce id.piv) = .ok s := by
  unfold requestSealing
  simp only [bind_eq_ok, pure_eq_ok, nextPiv_eq_ok, Prod.mk.injEq]
  constructor
  · intro h
    obtain ⟨piv, ⟨hle, rfl⟩, s', hs, rfl, rfl⟩ := h
    exact ⟨hle, rfl, hs⟩
  · intro h
    obtain ⟨hle, rfl, hs⟩ := h
    exact ⟨_, ⟨hle, rfl⟩, s, hs, rfl, rfl⟩

theorem sealRequest_eq_ok :
    ctx.sealRequest crypto m = .ok (packet, id) ↔
      ∃ s ciphertext, ctx.requestSealing m = .ok (s, id) ∧ s.run crypto = .ok ciphertext ∧
        packet = outer m (OptionValue.encode ⟨some id.kid, some id.piv⟩) ciphertext := by
  unfold sealRequest
  simp only [bind_eq_ok, pure_eq_ok, Prod.exists, Prod.mk.injEq]
  constructor
  · intro h
    obtain ⟨s, id', hs, ciphertext, hrun, hpacket, rfl⟩ := h
    exact ⟨s, ciphertext, hs, hrun, hpacket.symm⟩
  · intro h
    obtain ⟨s, ciphertext, hs, hrun, hpacket⟩ := h
    exact ⟨s, id, hs, ciphertext, hrun, hpacket.symm, rfl⟩

theorem protectRequest_of_seal (h : ctx.sealRequest crypto m = .ok (packet, id)) :
    ctx.protectRequest crypto m = (.ok (packet, id), ctx.advance) := by
  unfold protectRequest
  rw [h]

theorem protectRequest_eq_ok :
    (ctx.protectRequest crypto m).1 = .ok (packet, id) ↔
      ctx.sealRequest crypto m = .ok (packet, id) := by
  unfold protectRequest
  cases ctx.sealRequest crypto m with
  | error e => rfl
  | ok result => rfl

theorem outer_of_protectRequest (h : (ctx.protectRequest crypto m).1 = .ok (packet, id)) :
    ∃ option ciphertext, packet = outer m option ciphertext := by
  obtain ⟨s, ciphertext, -, -, hpacket⟩ := sealRequest_eq_ok.mp (protectRequest_eq_ok.mp h)
  exact ⟨_, ciphertext, hpacket⟩

theorem requestOpening_eq_ok :
    ctx.requestOpening packet = .ok (o, id) ↔
      OptionValue.ofPacket packet = .ok ⟨some id.kid, some id.piv⟩ ∧
        ctx.window.isValid id.sequenceNumber = true ∧
        ctx.opening packet id (ctx.peerNonce id.piv) = .ok o := by
  unfold requestOpening
  rw [bind_eq_ok]
  constructor
  · intro h
    obtain ⟨⟨kid?, piv?⟩, hvalue, h⟩ := h
    cases kid? with
    | none => cases h
    | some kid =>
      cases piv? with
      | none => cases h
      | some piv =>
        simp only at h
        split at h
        · cases h
        · next hvalid =>
          obtain ⟨o', ho, h⟩ := bind_eq_ok.mp h
          obtain ⟨rfl, rfl⟩ := Prod.mk.inj (pure_eq_ok.mp h)
          exact ⟨hvalue, by simpa using hvalid, ho⟩
  · intro h
    obtain ⟨hvalue, hvalid, ho⟩ := h
    refine ⟨_, hvalue, ?_⟩
    obtain ⟨kid, piv⟩ := id
    simp only
    rw [if_neg (by simpa using hvalid)]
    exact bind_eq_ok.mpr ⟨o, ho, rfl⟩

/-- Before anything is decrypted, a request is refused whose number is not valid. -/
theorem openRequest_of_replay
    (hvalue : OptionValue.ofPacket packet = .ok ⟨some id.kid, some id.piv⟩)
    (hreplay : ctx.window.isValid id.sequenceNumber = false) :
    ctx.openRequest crypto packet = .error .replayDetected := by
  have hopening : ctx.requestOpening packet = .error .replayDetected := by
    have hinvalid : ¬ctx.window.isValid id.sequenceNumber := by
      rw [hreplay]
      exact Bool.false_ne_true
    unfold requestOpening
    rw [hvalue]
    exact if_pos hinvalid
  unfold openRequest
  rw [hopening]
  rfl

theorem openRequest_eq_ok :
    ctx.openRequest crypto packet = .ok (m, id) ↔
      ∃ o text inside, ctx.requestOpening packet = .ok (o, id) ∧ o.run crypto = .ok text ∧
        parsePlaintext text = .ok inside ∧ m = merge packet inside := by
  unfold openRequest
  simp only [bind_eq_ok, pure_eq_ok, Prod.exists, Prod.mk.injEq]
  constructor
  · intro h
    obtain ⟨o, id', ho, text, htext, inside, hinside, hm, rfl⟩ := h
    exact ⟨o, text, inside, ho, htext, hinside, hm.symm⟩
  · intro h
    obtain ⟨o, text, inside, ho, htext, hinside, hm⟩ := h
    exact ⟨o, id, ho, text, htext, inside, hinside, hm.symm, rfl⟩

/-! ### Responses -/

theorem responseSealing_reuse_eq_ok {piv : Option Bytes} :
    ctx.responseSealing m id true = .ok (s, piv) ↔
      piv = none ∧ ctx.sealing m id (ctx.peerNonce id.piv) = .ok s := by
  unfold responseSealing
  rw [if_pos rfl]
  simp only [bind_eq_ok, pure_eq_ok, Prod.mk.injEq]
  constructor
  · intro h
    obtain ⟨s', hs, rfl, hpiv⟩ := h
    exact ⟨hpiv.symm, hs⟩
  · intro h
    obtain ⟨hpiv, hs⟩ := h
    exact ⟨s, hs, rfl, hpiv.symm⟩

theorem responseSealing_own_eq_ok {piv : Option Bytes} :
    ctx.responseSealing m id false = .ok (s, piv) ↔
      ctx.sequenceNumber ≤ PartialIv.maxNumber ∧
        piv = some (PartialIv.ofNumber ctx.sequenceNumber) ∧
        ctx.sealing m id (ctx.ownNonce (PartialIv.ofNumber ctx.sequenceNumber)) = .ok s := by
  unfold responseSealing
  rw [if_neg (by decide)]
  simp only [bind_eq_ok, pure_eq_ok, nextPiv_eq_ok, Prod.mk.injEq]
  constructor
  · intro h
    obtain ⟨piv', ⟨hle, rfl⟩, s', hs, rfl, hpiv⟩ := h
    exact ⟨hle, hpiv.symm, hs⟩
  · intro h
    obtain ⟨hle, hpiv, hs⟩ := h
    exact ⟨_, ⟨hle, rfl⟩, s, hs, rfl, hpiv.symm⟩

theorem sealResponse_eq_ok {reusePiv : Bool} :
    ctx.sealResponse crypto m id reusePiv = .ok packet ↔
      ∃ s piv ciphertext, ctx.responseSealing m id reusePiv = .ok (s, piv) ∧
        s.run crypto = .ok ciphertext ∧
        packet = outer m (OptionValue.encode ⟨none, piv⟩) ciphertext := by
  unfold sealResponse
  simp only [bind_eq_ok, pure_eq_ok, Prod.exists]
  constructor
  · intro h
    obtain ⟨s, piv, hs, ciphertext, hrun, hpacket⟩ := h
    exact ⟨s, piv, ciphertext, hs, hrun, hpacket.symm⟩
  · intro h
    obtain ⟨s, piv, ciphertext, hs, hrun, hpacket⟩ := h
    exact ⟨s, piv, hs, ciphertext, hrun, hpacket.symm⟩

theorem responseOpening_eq_ok :
    ctx.responseOpening packet id = .ok o ↔
      ∃ value, OptionValue.ofPacket packet = .ok value ∧
        ctx.opening packet id (ctx.responseNonce id value.piv) = .ok o := by
  unfold responseOpening
  rw [bind_eq_ok]

theorem openResponse_eq_ok :
    ctx.openResponse crypto packet id = .ok m ↔
      ∃ o text inside, ctx.responseOpening packet id = .ok o ∧ o.run crypto = .ok text ∧
        parsePlaintext text = .ok inside ∧ m = merge packet inside := by
  unfold openResponse
  simp only [bind_eq_ok, pure_eq_ok]
  constructor
  · intro h
    obtain ⟨o, ho, text, htext, inside, hinside, hm⟩ := h
    exact ⟨o, text, inside, ho, htext, hinside, hm.symm⟩
  · intro h
    obtain ⟨o, text, inside, ho, htext, hinside, hm⟩ := h
    exact ⟨o, ho, text, htext, inside, hinside, hm.symm⟩

end Context

end Oscore

end SecureCoap
