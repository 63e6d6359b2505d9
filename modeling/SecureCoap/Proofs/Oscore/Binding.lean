import SecureCoap.Proofs.Oscore.Authenticity

/-!
# Which requests accepted responses answer

A response does not say which request it answers, and what it says of its own number is not
authenticated. The network can change that as it likes: if encryption cannot be forged, a response
that an endpoint accepts for one of its requests was encrypted by the other endpoint as a response
to that very request.
-/

namespace SecureCoap

namespace Oscore

variable {crypto : Primitives}

/-! ### Responses -/

namespace Context

variable {ctx other : Context} {m packet : Coap.Packet} {id : RequestId}

theorem of_accepted_response
    (h : (ctx.perform crypto (.unprotectResponse packet id)).1 = .ok (.response m)) :
    ∃ o text inside, ctx.responseOpening packet id = .ok o ∧
      crypto.decrypt o.key o.nonce o.aad o.ciphertext = some text ∧
      parsePlaintext text = .ok inside ∧ m = merge packet inside := by
  rw [perform_unprotectResponse] at h
  obtain ⟨m', hopen, heq⟩ := map_eq_ok.mp h
  cases heq
  obtain ⟨o, text, inside, ho, htext, hinside, hm⟩ := openResponse_eq_ok.mp hopen
  exact ⟨o, text, inside, ho, Opening.run_eq_ok.mp htext, hinside, hm⟩

/-- Whatever number a response claims to have, it is decrypted with the key of the other endpoint
and for the request that it is taken to answer. -/
theorem opening_under {o : Opening}
    (h : (Call.unprotectResponse packet id).opening? ctx = some o) :
    o.key = ctx.recipientKey ∧ o.aad = aad ctx.aead id.kid id.piv := by
  obtain ⟨value, -, hopening⟩ := responseOpening_eq_ok.mp (toOption_eq_some.mp h)
  obtain ⟨-, rfl⟩ := opening_eq_ok.mp hopening
  exact ⟨rfl, rfl⟩

/-- What the other endpoint encrypts under the nonce of a request is accepted as the response to it,
whatever option the network gives it, as long as that tells no number. -/
theorem perform_response_of_matches (hmatch : ctx.Matches other) (hround : crypto.RoundTrips)
    {option text ciphertext : Bytes} {inside : Coap.Packet} (b : UInt8) (id : RequestId)
    (hoption : (OptionValue.decode option).piv = none)
    (hencrypt : crypto.encrypt other.senderKey (other.peerNonce id.piv)
      (aad other.aead id.kid id.piv) text = some ciphertext)
    (hinside : parsePlaintext text = .ok inside) :
    ctx.perform crypto (.unprotectResponse (outer (shortResponse b) option ciphertext) id) =
        (.ok (.response (merge (outer (shortResponse b) option ciphertext) inside)), ctx) ∧
      (Call.unprotectResponse (outer (shortResponse b) option ciphertext) id).opening? ctx =
        some ⟨other.senderKey, other.peerNonce id.piv, aad other.aead id.kid id.piv,
          ciphertext⟩ := by
  rw [hmatch.senderKey, hmatch.peerNonce, hmatch.aead] at hencrypt
  rw [hmatch.senderKey, hmatch.peerNonce, hmatch.aead]
  have hnonce : ctx.responseNonce id (OptionValue.decode option).piv = ctx.ownNonce id.piv := by
    rw [hoption]
    rfl
  have hopening : ctx.responseOpening (outer (shortResponse b) option ciphertext) id =
      .ok ⟨ctx.recipientKey, ctx.ownNonce id.piv, aad ctx.aead id.kid id.piv, ciphertext⟩ := by
    rw [← hnonce]
    exact responseOpening_eq_ok.mpr
      ⟨_, ofPacket_outer_eq (shortResponse b) option ciphertext, opening_eq_ok.mpr ⟨rfl, rfl⟩⟩
  have hopen := openResponse_eq_ok.mpr
    ⟨_, text, inside, hopening, Opening.run_eq_ok.mpr (hround hencrypt), hinside, rfl⟩
  rw [perform_unprotectResponse, hopen]
  exact ⟨rfl, toOption_eq_some.mpr hopening⟩

/-- What the other endpoint encrypts for the additional data of an own request is a response to that
request. A request of the other endpoint has another sender in its additional data, and a response
to another request has that request there. -/
theorem sealed_for_response (hmatch : ctx.Matches other) (hfits : ctx.Fits)
    (hids : ctx.senderId ≠ ctx.recipientId) {call : Call} {x : Sealing}
    (hx : call.sealing? other = some x) (hkid : id.kid = ctx.senderId) (hpiv : id.piv.length ≤ 7)
    (haad : x.aad = aad ctx.aead id.kid id.piv) :
    ∃ response reusePiv, call = .protectResponse response id reusePiv := by
  have hlength : id.kid.length + id.piv.length < 2 ^ 61 := by
    have hsender := hfits.senderId
    rw [hkid]
    omega
  have hsame : ∀ kid piv, x.aad = aad other.aead kid piv → id = ⟨kid, piv⟩ := by
    intro kid piv hxaad
    rw [haad, hmatch.aead] at hxaad
    obtain ⟨hkids, hpivs⟩ := aad_injective_of_length hlength hxaad
    rw [← hkids, ← hpivs]
  rcases (sealing_cases hx).2 with ⟨request, -, -, -, hxaad⟩ | ⟨response, rid, rfl, -, -, hxaad⟩ |
    ⟨response, rid, rfl, -, hxaad⟩
  · have hsender : id.kid = other.senderId := congrArg RequestId.kid (hsame _ _ hxaad)
    rw [hkid, hmatch.senderId] at hsender
    exact absurd hsender hids
  · exact ⟨response, false, by rw [hsame _ _ hxaad]⟩
  · exact ⟨response, true, by rw [hsame _ _ hxaad]⟩

end Context

namespace Pair

/-! ### Where accepted responses come from -/

/-- In one of these steps endpoint `b` protected a response to the request `id`, and what is private
in the message `m` was read from what it encrypted then. -/
def Answered (crypto : Primitives) (steps : List (Step Pair Move)) (id : RequestId)
    (m : Coap.Packet) : Prop :=
  ∃ t ∈ steps, t.call.side = .b ∧
    (∃ response reusePiv, t.call.call = .protectResponse response id reusePiv) ∧
    (t.result (Pair.perform crypto)).isOk = true ∧
    ∃ x inside, t.call.call.sealing? (used t) = some x ∧ parsePlaintext x.plaintext = .ok inside ∧
      m.code = inside.code ∧ m.payload = inside.payload ∧
      ∀ n, isPrivate n = true → m.options.values n = inside.options.values n

/-- Nothing else is encrypted in these steps under the key and nonce and with the additional data
that the step `s` decrypts with than responses of endpoint `b` to the request `id`. -/
def OnlyAnswers (steps : List (Step Pair Move)) (s : Step Pair Move) (id : RequestId) : Prop :=
  ∀ o, s.call.call.opening? (used s) = some o → ∀ t ∈ steps, ∀ x,
    t.call.call.sealing? (used t) = some x → x.key = o.key → x.nonce = o.nonce → x.aad = o.aad →
    t.call.side = .b ∧ ∃ response reusePiv, t.call.call = .protectResponse response id reusePiv

/-- Endpoint `b` answers a request of endpoint `a` under the nonce of the request. The network
replaces the option of the answer by one that announces a number of three bytes, but has none. -/
def answering (a : Context) (request response : Bytes) : List Move :=
  requesting a request ++ [
    ⟨.b, .protectResponse (Context.shortResponse 1) ⟨a.senderId, [0]⟩ true⟩,
    ⟨.a, .unprotectResponse (outer (Context.shortResponse 1) [0x03] response) ⟨a.senderId, [0]⟩⟩]

theorem answering_accepted {p : Parameters} {size : Nat} {a b : Context}
    (ha : Context.derive crypto p = .ok a)
    (hb : Context.derive crypto { p.swap with windowSize := size } = .ok b)
    (hround : crypto.RoundTrips) (hencrypts : crypto.EncryptsUpTo 3) :
    ∃ request response pre s m,
      Pair.history crypto ⟨a, b⟩ (answering a request response) = pre ++ [s] ∧
      Authentic crypto (pre ++ [s]) ∧
      s.call = ⟨.a, .unprotectResponse (outer (Context.shortResponse 1) [0x03] response)
        ⟨a.senderId, [0]⟩⟩ ∧
      (∃ t ∈ pre, t.call.side = .a ∧ (∃ sent, t.call.call = .protectRequest sent) ∧
        ∃ sent, t.result (Pair.perform crypto) = .ok ⟨sent, some ⟨a.senderId, [0]⟩⟩) ∧
      s.result (Pair.perform crypto) = .ok (.response m) := by
  obtain ⟨c, hsent, hrequested, hauth⟩ := requesting_received ha hb hround hencrypts
  have hmatch : a.advance.Matches (b.accept 0) :=
    (Context.matches_of_derive ha hb).of_frames _ _ _ _
  obtain ⟨d, hd⟩ := hencrypts b.senderKey (b.peerNonce [0]) (aad b.aead a.senderId [0])
    [0x45, 0xFF, 1] (by decide)
  have hanswered := perform_b a.advance
    (Context.perform_short (b.accept 0) 1 ⟨a.senderId, [0]⟩ hd)
  have hoption : (OptionValue.decode [0x03]).piv = none := rfl
  obtain ⟨hresponse, hopening⟩ := Context.perform_response_of_matches hmatch hround 1
    ⟨a.senderId, [0]⟩ hoption hd rfl
  have haccepted := perform_a (b.accept 0) hresponse
  refine ⟨c, d, Pair.history crypto ⟨a, b⟩ (requesting a c) ++ [⟨⟨a.advance, b.accept 0⟩,
      ⟨.b, .protectResponse (Context.shortResponse 1) ⟨a.senderId, [0]⟩ true⟩⟩],
    ⟨⟨a.advance, b.accept 0⟩, ⟨.a, .unprotectResponse
      (outer (Context.shortResponse 1) [0x03] d) ⟨a.senderId, [0]⟩⟩⟩, _, ?_, ?_, rfl, ?_,
    congrArg Prod.fst haccepted⟩
  · show SecureCoap.history (Pair.perform crypto) ⟨a, b⟩ (requesting a c ++ _) = _
    rw [history_append, hrequested, history_cons, history_cons, history_nil, hanswered,
      List.append_assoc]
    rfl
  · refine (hauth.concat (encrypted_of_opening_none rfl)).concat ?_
    have hsealing : (Call.protectResponse (Context.shortResponse 1) ⟨a.senderId, [0]⟩ true).sealing?
        (b.accept 0) = some ⟨b.senderKey, b.peerNonce [0], aad b.aead a.senderId [0],
          [0x45, 0xFF, 1]⟩ :=
      Option.map_eq_some_iff.mpr ⟨_, toOption_eq_some.mpr
        (Context.responseSealing_short (b.accept 0) 1 ⟨a.senderId, [0]⟩), rfl⟩
    exact encrypted_of_sealing (List.mem_append_right _ (List.mem_singleton_self _)) hsealing
      hopening hd
  · refine ⟨⟨⟨a, b⟩, ⟨.a, .protectRequest Context.shortRequest⟩⟩,
      List.mem_append_left _ (List.mem_cons_self ..), rfl,
      ⟨Context.shortRequest, rfl⟩, Context.firstRequest a.senderId c, ?_⟩
    exact congrArg Prod.fst (perform_a b hsent)

section

variable {a b : Context} {moves : List Move} {pre post : List (Step Pair Move)}
  {s : Step Pair Move} {packet m : Coap.Packet} {id : RequestId}

theorem onlyAnswers (hmatch : a.Matches b) (hfits : a.Fits) (hids : a.senderId ≠ a.recipientId)
    (hkeys : a.senderKey ≠ a.recipientKey) (hs : s ∈ Pair.history crypto ⟨a, b⟩ moves)
    (hcall : s.call = ⟨.a, .unprotectResponse packet id⟩) (hkid : id.kid = a.senderId)
    (hpiv : id.piv.length ≤ 7) : OnlyAnswers (Pair.history crypto ⟨a, b⟩ moves) s id := by
  intro o ho t ht x hx hkey _ haad
  obtain ⟨n, w, hused⟩ := used_frame hs
  rw [hcall] at ho hused
  obtain ⟨hokey, hoaad⟩ := Context.opening_under ho
  rw [hused] at hokey hoaad
  obtain ⟨hside, hpeer⟩ := peer_of_sealing hmatch hkeys ht hx (hkey.trans hokey)
  exact ⟨hside, Context.sealed_for_response hpeer hfits hids hx hkid hpiv (haad.trans hoaad)⟩

/-- What identifies a request that an endpoint protected has the identifier of that endpoint. -/
theorem id_of_sent {t : Step Pair Move} (ht : t ∈ Pair.history crypto ⟨a, b⟩ moves)
    (hside : t.call.side = .a) {request : Coap.Packet}
    (hcall : t.call.call = .protectRequest request)
    (hok : t.result (Pair.perform crypto) = .ok ⟨packet, some id⟩) :
    id.kid = a.senderId ∧ id.piv.length ≤ 7 := by
  obtain ⟨n, w, hused⟩ := used_frame ht
  rw [hside] at hused
  have hresult : ((used t).perform crypto (.protectRequest request)).1 = .ok ⟨packet, some id⟩ := by
    rw [← hcall]
    exact hok
  obtain ⟨-, hid⟩ := Context.id_of_protected hresult
  refine ⟨?_, Context.length_piv_of_perform hresult⟩
  rw [hid, hused]
  rfl

/-- A response that endpoint `b` encrypted, with what was decrypted of it later on. -/
theorem answered_of_encrypt {t : Step Pair Move} {steps : List (Step Pair Move)} {x : Sealing}
    {ciphertext : Bytes} {inside : Coap.Packet} (ht : t ∈ steps) (hside : t.call.side = .b)
    (hcall : ∃ response reusePiv, t.call.call = .protectResponse response id reusePiv)
    (hx : t.call.call.sealing? (used t) = some x)
    (hencrypt : crypto.encrypt x.key x.nonce x.aad x.plaintext = some ciphertext)
    (hinside : parsePlaintext x.plaintext = .ok inside) (packet : Coap.Packet) :
    Answered crypto steps id (merge packet inside) := by
  have hprotects : t.call.call.takesNumber = true ∨ t.call.call.reusesNonce = true := by
    obtain ⟨response, reusePiv, hcall⟩ := hcall
    rw [hcall]
    cases reusePiv with
    | false => exact Or.inl rfl
    | true => exact Or.inr rfl
  have hok : ((used t).perform crypto t.call.call).1.isOk = true :=
    (Context.isOk_iff_encrypts hprotects).mpr ⟨x, _, hx, Sealing.run_eq_ok.mpr hencrypt⟩
  exact ⟨t, ht, hside, hcall, hok, x, inside, hx, hinside, rfl, rfl,
    fun n hn => values_merge packet inside hn⟩

/-- A response that is accepted for an own request was protected by the other endpoint as a response
to that request, and nothing else that was encrypted passes for one: no request, no response to
another request, and no own message. -/
theorem accepted_response_bound {p : Parameters} {size : Nat}
    (ha : Context.derive crypto p = .ok a)
    (hb : Context.derive crypto { p.swap with windowSize := size } = .ok b)
    (hids : p.senderId ≠ p.recipientId) (hkeys : a.senderKey ≠ a.recipientKey)
    (hround : crypto.RoundTrips)
    (hauth : Authentic crypto (Pair.history crypto ⟨a, b⟩ moves))
    (hsteps : Pair.history crypto ⟨a, b⟩ moves = pre ++ s :: post)
    (hcall : s.call = ⟨.a, .unprotectResponse packet id⟩)
    (hsent : ∃ t ∈ pre, t.call.side = .a ∧ (∃ request, t.call.call = .protectRequest request) ∧
      ∃ sent, t.result (Pair.perform crypto) = .ok ⟨sent, some id⟩)
    (hok : s.result (Pair.perform crypto) = .ok (.response m)) :
    Answered crypto pre id m ∧ OnlyAnswers (Pair.history crypto ⟨a, b⟩ moves) s id := by
  have hmatch := Context.matches_of_derive ha hb
  have hne : a.senderId ≠ a.recipientId := by
    obtain ⟨hsender, hrecipient⟩ := Context.ids_of_derive ha
    rw [hsender, hrecipient]
    exact hids
  have hearlier : ∀ t ∈ pre, t ∈ Pair.history crypto ⟨a, b⟩ moves := by
    intro t ht
    rw [hsteps]
    exact List.mem_append_left _ ht
  have hs : s ∈ Pair.history crypto ⟨a, b⟩ moves := by
    rw [hsteps]
    exact List.mem_append_right pre (List.mem_cons_self ..)
  obtain ⟨t₀, ht₀, hside₀, ⟨request, hcall₀⟩, ⟨sent, hsent⟩⟩ := hsent
  obtain ⟨hkid, hpiv⟩ := id_of_sent (hearlier t₀ ht₀) hside₀ hcall₀ hsent
  have honly := onlyAnswers hmatch (Context.fits_of_derive ha) hne hkeys hs hcall hkid hpiv
  refine ⟨?_, honly⟩
  -- What was decrypted, and what it was before.
  have hresult : ((used s).perform crypto (.unprotectResponse packet id)).1
      = .ok (.response m) := by
    have hself : s.result (Pair.perform crypto) = ((used s).perform crypto s.call.call).1 := rfl
    rw [hself, hcall] at hok
    exact hok
  obtain ⟨o, text, inside, ho, hdecrypt, hinside, rfl⟩ := Context.of_accepted_response hresult
  have hopening : s.call.call.opening? (used s) = some o := by
    rw [hcall]
    exact toOption_eq_some.mpr ho
  obtain ⟨t, ht, x, hx, hkey, hnonce, haad, hencrypt⟩ :=
    hauth pre s post hsteps o text hopening hdecrypt
  obtain ⟨hside, htcall⟩ := honly o hopening t (hearlier t ht) x hx hkey hnonce haad
  rw [plaintext_of_decrypt hround hencrypt hkey hnonce haad hdecrypt] at hinside
  exact answered_of_encrypt ht hside htcall hx hencrypt hinside packet

end

theorem accepted_response_bound_testVector :
    ∃ a b request response pre s m,
      Context.derive TestVector.crypto TestVector.client = .ok a ∧
      Context.derive TestVector.crypto { TestVector.client.swap with windowSize := 8 } = .ok b ∧
      TestVector.client.senderId ≠ TestVector.client.recipientId ∧
      a.senderKey ≠ a.recipientKey ∧ TestVector.crypto.RoundTrips ∧
      Authentic TestVector.crypto
        (Pair.history TestVector.crypto ⟨a, b⟩ (answering a request response)) ∧
      Pair.history TestVector.crypto ⟨a, b⟩ (answering a request response) = pre ++ [s] ∧
      s.call = ⟨.a, .unprotectResponse (outer (Context.shortResponse 1) [0x03] response)
        ⟨a.senderId, [0]⟩⟩ ∧
      (∃ t ∈ pre, t.call.side = .a ∧ (∃ sent, t.call.call = .protectRequest sent) ∧
        ∃ sent, t.result (Pair.perform TestVector.crypto) = .ok ⟨sent, some ⟨a.senderId, [0]⟩⟩) ∧
      s.result (Pair.perform TestVector.crypto) = .ok (.response m) ∧
      Answered TestVector.crypto pre ⟨a.senderId, [0]⟩ m ∧
      OnlyAnswers (Pair.history TestVector.crypto ⟨a, b⟩ (answering a request response)) s
        ⟨a.senderId, [0]⟩ := by
  obtain ⟨a, -, ha, -, hkeys⟩ := TestVector.derive_client
  obtain ⟨b, hb⟩ := TestVector.derive_server 8
  obtain ⟨request, response, pre, s, m, hsteps, hauth, hcall, hsent, hok⟩ := answering_accepted
    ha hb TestVector.roundTrips (TestVector.encryptsUpTo.mono (by decide))
  rw [← hsteps] at hauth
  have hids : TestVector.client.senderId ≠ TestVector.client.recipientId := by decide
  obtain ⟨hanswered, honly⟩ := accepted_response_bound ha hb hids hkeys TestVector.roundTrips hauth
    hsteps hcall hsent hok
  exact ⟨a, b, request, response, pre, s, m, ha, hb, hids, hkeys, TestVector.roundTrips, hauth,
    hsteps, hcall, hsent, hok, hanswered, honly⟩

end Pair

end Oscore

end SecureCoap
